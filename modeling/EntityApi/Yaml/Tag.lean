import EntityApi.Text.Digit
import EntityApi.Number.Numeral

/-!
The standard tags, and the tag of a plain scalar, which its spelling decides. Words for truth values
and null have three spellings: in lower case, in upper case and capitalised. Whole numbers are
decimal, binary, octal after a zero, hexadecimal, or in groups of base 60; real numbers have a point.
Underscores may stand between the digits of numbers.
-/

namespace EntityApi.Yaml

open Text

namespace Tag

def standard : String := "tag:yaml.org,2002:"

def ofName (name : String) : String := standard ++ name

def null : String := ofName "null"
def bool : String := ofName "bool"
def int : String := ofName "int"
def float : String := ofName "float"
def binary : String := ofName "binary"
def timestamp : String := ofName "timestamp"
def text : String := ofName "str"
def sequence : String := ofName "seq"
def mapping : String := ofName "map"
def orderedMap : String := ofName "omap"
def pairs : String := ofName "pairs"
def set : String := ofName "set"
/-- The key under which a mapping takes in others. -/
def merge : String := ofName "merge"
/-- The key of the value that a mapping stands for where a scalar is wanted. -/
def value : String := ofName "value"
/-- The indicators of the language themselves, which no document spells. -/
def indicator : String := ofName "yaml"

end Tag

/-- The words for truth values in lower case. -/
def truthWords : List (String × Bool) := [
  ("yes", true), ("no", false), ("true", true), ("false", false), ("on", true), ("off", false)]

/-- The three spellings of a word in lower case. -/
def spellings (word : String) : List String := [word, word.capitalize, word.map Char.toUpper]

def isTruthWord (s : String) : Bool := truthWords.any fun e => (spellings e.1).contains s

def isNullWord (s : String) : Bool := s == "" || s == "~" || (spellings "null").contains s

def isDigitOrLine (c : Char) : Bool := c.isDigit || c == '_'

/-- Reads groups of a colon and a number below 60; what is left after at least one of them. -/
def afterSixties? : List Char → Option (List Char)
  | ':' :: c :: d :: rest =>
    if c.isDigit && decide (c ≤ '5') && d.isDigit then
      if rest.head? == some ':' then afterSixties? rest else some rest
    else if c.isDigit then
      if d == ':' then afterSixties? (d :: rest) else some (d :: rest)
    else none
  | [':', c] => if c.isDigit then some [] else none
  | _ => none
termination_by s => s.length
decreasing_by all_goals simp only [List.length_cons]; omega

/-- Whether the rest of a number is an exponent with its sign, or nothing. -/
def isExponent : List Char → Bool
  | [] => true
  | e :: sign :: digits =>
    (e == 'e' || e == 'E') && (sign == '+' || sign == '-') && !digits.isEmpty &&
      digits.all Char.isDigit
  | _ => false

/-- A point, digits and an exponent. -/
def isFraction : List Char → Bool
  | '.' :: rest => isExponent (rest.dropWhile isDigitOrLine)
  | _ => false

def startsWithDigit (s : List Char) : Bool := s.head?.any Char.isDigit

def isFloat (s : List Char) : Bool :=
  let (_, body) := Numeral.splitSign s
  let rest := body.dropWhile isDigitOrLine
  let sixties := match afterSixties? rest with
    | some ('.' :: more) => more.all isDigitOrLine
    | _ => false
  (startsWithDigit body && (isFraction rest || sixties)) ||
    (s.head? == some '.' && startsWithDigit (s.drop 1) && isFraction s) ||
    (spellings "inf").any (fun w => body == '.' :: w.toList) ||
    [".nan", ".NaN", ".NAN"].contains (String.ofList s)

def isInt (s : List Char) : Bool :=
  let (_, body) := Numeral.splitSign s
  match body with
  | ['0'] => true
  | '0' :: 'b' :: rest => !rest.isEmpty && rest.all (fun c => c == '0' || c == '1' || c == '_')
  | '0' :: 'x' :: rest =>
    !rest.isEmpty && rest.all fun c =>
      isDigitOrLine c || decide ('a' ≤ c ∧ c ≤ 'f') || decide ('A' ≤ c ∧ c ≤ 'F')
  | '0' :: rest => rest.all fun c => decide ('0' ≤ c ∧ c ≤ '7') || c == '_'
  | _ =>
    let rest := body.dropWhile isDigitOrLine
    startsWithDigit body && (rest.isEmpty || afterSixties? rest == some [])

/-! ## Timestamps -/

/-- The parts of a written time: a day, and a clock that may have an offset in minutes. -/
structure Timestamp where
  year : Nat
  month : Nat
  day : Nat
  /-- Hours, minutes, seconds and microseconds. -/
  clock : Option (Nat × Nat × Nat × Nat)
  offset : Option Int
  deriving Repr, DecidableEq

namespace Timestamp

/-- A number of at least `least` and at most `most` digits. -/
def number? (least most : Nat) (s : List Char) : Option (Nat × List Char) :=
  let digits := (s.take most).takeWhile Char.isDigit
  if digits.length < least then none
  else some (Numeral.ofDigits (digits.filterMap asciiDigit?), s.drop digits.length)

def mark? (c : Char) : List Char → Option (List Char)
  | [] => none
  | d :: s => if c == d then some s else none

/-- Six digits of a fraction; further ones are dropped. -/
def micros (digits : List Char) : Nat :=
  let six := digits.take 6
  Numeral.ofDigits (six.filterMap asciiDigit?) * Nat.pow 10 (6 - six.length)

def fraction : List Char → Nat × List Char
  | '.' :: s => (micros (s.takeWhile Char.isDigit), s.dropWhile Char.isDigit)
  | s => (0, s)

def offset? (s : List Char) : Option (Option Int) :=
  match s.dropWhile fun c => c == ' ' || c == '\t' with
  | [] => if s.isEmpty then some none else none
  | ['Z'] => some (some 0)
  | sign :: rest => do
    if sign != '+' && sign != '-' then none
    let (hours, rest) ← number? 1 2 rest
    let (minutes, rest) ← if rest.isEmpty then some (0, []) else number? 2 2 (← mark? ':' rest)
    if !rest.isEmpty then none
    let total : Int := hours * 60 + minutes
    return some (if sign == '-' then -total else total)

/-- What stands between the day and the clock. -/
def gap? : List Char → Option (List Char)
  | [] => none
  | c :: s =>
    if c == 'T' || c == 't' then some s
    else if c == ' ' || c == '\t' then some (s.dropWhile fun c => c == ' ' || c == '\t')
    else none

def read? (s : List Char) : Option Timestamp := do
  let (year, rest) ← number? 4 4 s
  let (month, rest) ← number? 1 2 (← mark? '-' rest)
  let (day, rest) ← number? 1 2 (← mark? '-' rest)
  if rest.isEmpty then return ⟨year, month, day, none, none⟩
  let (hour, rest) ← number? 1 2 (← gap? rest)
  let (minute, rest) ← number? 2 2 (← mark? ':' rest)
  let (second, rest) ← number? 2 2 (← mark? ':' rest)
  let (micro, rest) := fraction rest
  return ⟨year, month, day, some (hour, minute, second, micro), ← offset? rest⟩

end Timestamp

/-- A plain scalar is a time if it has a clock, or if all parts of its day have their full width. -/
def isTimestamp (s : List Char) : Bool :=
  match Timestamp.read? s with
  | none => false
  | some t => t.clock.isSome || s.length == 10

/-- The tag of a plain scalar. -/
def Tag.ofPlain (s : String) : String :=
  if isNullWord s then Tag.null
  else if isTruthWord s then Tag.bool
  else if isFloat s.toList then Tag.float
  else if isInt s.toList then Tag.int
  else if isTimestamp s.toList then Tag.timestamp
  else if s == "<<" then Tag.merge
  else if s == "=" then Tag.value
  else if s == "!" || s == "&" || s == "*" then Tag.indicator
  else Tag.text

end EntityApi.Yaml
