/-!
Bytes in base 64. Characters outside the alphabet are passed over. Padding ends the data once the
last group is complete with it; data that ends within a group is refused.
-/

namespace EntityApi.Yaml.Binary

/-- The six bits that a character of the alphabet stands for. -/
def sextet? (c : Char) : Option Nat :=
  if decide ('A' ≤ c ∧ c ≤ 'Z') then some (c.toNat - 65)
  else if decide ('a' ≤ c ∧ c ≤ 'z') then some (c.toNat - 71)
  else if c.isDigit then some (c.toNat + 4)
  else if c == '+' then some 62
  else if c == '/' then some 63
  else none

inductive Fault where
  /-- The data ends one character after a group, and `count` characters were read. -/
  | loneCharacter (count : Nat)
  | padding
  deriving Repr, DecidableEq

namespace Fault

def message : Fault → String
  | loneCharacter count =>
    "Invalid base64-encoded string: number of data characters (" ++ toString count ++
      ") cannot be 1 more than a multiple of 4"
  | padding => "Incorrect padding"

end Fault

/-- Decodes the rest of the data after `place` characters of a group, whose unused bits are `left`,
`pads` padding marks and `count` characters in all. -/
def decodeFrom (place left pads count : Nat) : List Char → Except Fault (List UInt8)
  | [] =>
    if place == 0 then .ok []
    else if place == 1 then .error (.loneCharacter count)
    else .error .padding
  | c :: s =>
    if c == '=' then
      if place < 2 then decodeFrom place left pads count s
      else if 4 ≤ place + pads + 1 then .ok []
      else decodeFrom place left (pads + 1) count s
    else
      match sextet? c with
      | none => decodeFrom place left pads count s
      | some n =>
        match place with
        | 0 => decodeFrom 1 n 0 (count + 1) s
        | 1 => (UInt8.ofNat (left * 4 + n / 16) :: ·) <$> decodeFrom 2 (n % 16) 0 (count + 1) s
        | 2 => (UInt8.ofNat (left * 16 + n / 4) :: ·) <$> decodeFrom 3 (n % 4) 0 (count + 1) s
        | _ => (UInt8.ofNat (left * 64 + n) :: ·) <$> decodeFrom 0 0 0 (count + 1) s

def decode (s : List Char) : Except Fault (List UInt8) := decodeFrom 0 0 0 0 s

end EntityApi.Yaml.Binary
