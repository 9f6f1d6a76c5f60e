/-!
Lenient decoding of UTF-8: every well-formed sequence gives its character, and a byte that starts
none is left out.
-/

namespace EntityApi.Text

def isContinuation (b : UInt8) : Bool := decide (0x80 ≤ b) && decide (b < 0xC0)

/-- The low six bits of a continuation byte. -/
def payload (b : UInt8) : Nat := b.toNat % 64

/-- The character that the bytes start with and the length of its sequence. Overlong forms, encoded
surrogates and values past the last code point are not well formed. -/
def decodeChar? : List UInt8 → Option (Char × Nat)
  | [] => none
  | a :: rest =>
    if a < 0x80 then some (Char.ofNat a.toNat, 1)
    else if 0xC2 ≤ a ∧ a < 0xE0 then
      match rest with
      | b :: _ =>
        if isContinuation b then some (Char.ofNat ((a.toNat - 0xC0) * 64 + payload b), 2) else none
      | _ => none
    else if 0xE0 ≤ a ∧ a < 0xF0 then
      match rest with
      | b :: c :: _ =>
        let n := ((a.toNat - 0xE0) * 64 + payload b) * 64 + payload c
        if isContinuation b && isContinuation c && decide (0x800 ≤ n) &&
            !(decide (0xD800 ≤ n) && decide (n < 0xE000)) then some (Char.ofNat n, 3)
        else none
      | _ => none
    else if 0xF0 ≤ a ∧ a < 0xF5 then
      match rest with
      | b :: c :: d :: _ =>
        let n := (((a.toNat - 0xF0) * 64 + payload b) * 64 + payload c) * 64 + payload d
        if isContinuation b && isContinuation c && isContinuation d && decide (0x10000 ≤ n) &&
            decide (n < 0x110000) then some (Char.ofNat n, 4)
        else none
      | _ => none
    else none

def decodeChars : List UInt8 → List Char
  | [] => []
  | a :: rest =>
    match decodeChar? (a :: rest) with
    | some (c, size) => c :: decodeChars (rest.drop (size - 1))
    | none => decodeChars rest
termination_by bytes => bytes.length
decreasing_by all_goals simp only [List.length_cons, List.length_drop]; omega

def decodeUtf8 (bytes : List UInt8) : String := String.ofList (decodeChars bytes)

end EntityApi.Text
