import EntityApi.Number.Binary64
import EntityApi.Text.Blank
import EntityApi.Text.Digit

/-!
Reading numbers from text. Blanks around a number are ignored and digits of any script count; a
single underscore may stand between two digits. Whole numbers of more than 4300 digits are refused.
-/

namespace EntityApi.Numeral

open Text

/-- The longest run of digits that is converted to or from a whole number. -/
def digitLimit : Nat := 4300

inductive IntegerFault where
  | malformed
  | tooLong (digits : Nat)
  deriving Repr, DecidableEq

/-- The information separators are blanks in a text but not around a number. -/
def isNumberBlank (c : Char) : Bool := isBlank c && !(decide (28 ≤ c.toNat) && decide (c.toNat ≤ 31))

def trimNumber (s : List Char) : List Char :=
  ((s.dropWhile isNumberBlank).reverse.dropWhile isNumberBlank).reverse

/-- The number that the digits denote, the first one leading. -/
def ofDigits (digits : List Nat) : Nat := digits.foldl (fun n d => 10 * n + d) 0

/-- Digits, with an underscore allowed between two of them. -/
def groupedDigits? : List Char → Option (List Nat)
  | [] => none
  | [c] => (digitValue? c).map ([·])
  | c :: '_' :: d :: rest => do return (← digitValue? c) :: (← groupedDigits? (d :: rest))
  | c :: d :: rest => do return (← digitValue? c) :: (← groupedDigits? (d :: rest))

def splitSign : List Char → Bool × List Char
  | '-' :: rest => (true, rest)
  | '+' :: rest => (false, rest)
  | s => (false, s)

def signed (negative : Bool) (n : Nat) : Int := if negative then -(n : Int) else n

/-- A whole number with optional sign. -/
def readInteger (s : List Char) : Except IntegerFault Int :=
  let (negative, body) := splitSign (trimNumber s)
  match groupedDigits? body with
  | none => .error .malformed
  | some digits =>
    if digitLimit < digits.length then .error (.tooLong digits.length)
    else .ok (signed negative (ofDigits digits))

/-- The decimal form of a whole number. -/
def write (n : Int) : List Char := (if n < 0 then ['-'] else []) ++ Nat.toDigits 10 n.natAbs

/-- The decimal form, if it does not exceed the limit. -/
def write? (n : Int) : Option (List Char) :=
  if n.natAbs < Nat.pow 10 digitLimit then some (write n) else none

/-- An optional minus and ASCII digits, and nothing else. -/
def readPlainInteger (s : List Char) : Except IntegerFault Int :=
  let (negative, body) := match s with
    | '-' :: rest => (true, rest)
    | _ => (false, s)
  if body.isEmpty || !body.all isAsciiDigit then .error .malformed
  else if digitLimit < body.length then .error (.tooLong body.length)
  else .ok (signed negative (ofDigits (body.filterMap asciiDigit?)))

/-- Takes out underscores that stand between digits; `none` if one stands elsewhere. -/
def dropUnderscores? (afterDigit : Bool) : List Char → Option (List Char)
  | [] => some []
  | '_' :: rest =>
    if afterDigit && rest.head?.any (fun c => (digitValue? c).isSome) then
      dropUnderscores? false rest
    else none
  | c :: rest => (c :: ·) <$> dropUnderscores? (digitValue? c).isSome rest

def lowerAscii (c : Char) : Char := if 'A' ≤ c ∧ c ≤ 'Z' then Char.ofNat (c.toNat + 32) else c

/-- The exponent after the mantissa: nothing, or a mark, an optional sign and digits. -/
def exponent? : List Char → Option Int
  | [] => some 0
  | c :: rest =>
    if c == 'e' || c == 'E' then
      let (negative, body) := splitSign rest
      if body.isEmpty then none
      else (body.mapM digitValue?).map fun digits => signed negative (ofDigits digits)
    else none

/-- A number in positional or scientific notation, infinity or not-a-number, without a sign. -/
def readUnsignedReal? (negative : Bool) (s : List Char) : Option Binary64 :=
  let word := String.ofList (s.map lowerAscii)
  if word == "inf" || word == "infinity" then some (.infinite negative)
  else if word == "nan" then some .nan
  else
    let isDigit (c : Char) : Bool := (digitValue? c).isSome
    let whole := s.takeWhile isDigit
    let rest := s.dropWhile isDigit
    let (fraction, rest) := match rest with
      | '.' :: more => (more.takeWhile isDigit, more.dropWhile isDigit)
      | _ => ([], rest)
    let digits := whole ++ fraction
    if digits.isEmpty then none
    else (exponent? rest).map fun e =>
      Binary64.ofScientific negative (ofDigits (digits.filterMap digitValue?)) (e - fraction.length)

def readReal? (s : List Char) : Option Binary64 := do
  let plain ← dropUnderscores? false (trimNumber s)
  let (negative, body) := splitSign plain
  readUnsignedReal? negative body

end EntityApi.Numeral
