import EntityApi.Value.Shown

/-!
Values as whole numbers. Numbers are cut towards zero, texts and bytes are read as numerals; what is
no number, or an infinite one, has no whole part.
-/

namespace EntityApi.Value

def readWhole (shown : String) (s : List Char) : Result Int :=
  match Numeral.readInteger s with
  | .ok n => .ok n
  | .error _ => mishap .badValue ("invalid literal for int() with base 10: " ++ shown)

def whole? : Value → Result Int
  | int n => .ok n
  | bool b => .ok (if b then 1 else 0)
  | real x =>
    match x.truncate? with
    | some n => .ok n
    | none =>
      if x = .nan then mishap .badValue "cannot convert float NaN to integer"
      else mishap .overflow "cannot convert float infinity to integer"
  | decimal d =>
    match d.truncate? with
    | some n => .ok n
    | none =>
      if d.isNan then mishap .badValue "cannot convert NaN to integer"
      else mishap .overflow "cannot convert Infinity to integer"
  | text s => readWhole (Text.quoted s) s.toList
  | bytes b =>
    if b.all (· < 128) then readWhole (Text.quotedBytes b) (b.map fun x => Char.ofNat x.toNat)
    else mishap .badValue ("invalid literal for int() with base 10: " ++ Text.quotedBytes b)
  | v => mishap .badType
      ("int() argument must be a string, a bytes-like object or a real number, not '" ++ v.kind ++ "'")

end EntityApi.Value
