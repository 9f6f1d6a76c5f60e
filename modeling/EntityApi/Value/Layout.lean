import EntityApi.Number.Rounded
import EntityApi.Value.Shown

/-!
Laying out a value in a field of a text: filling it up to a width, cutting a text to a precision,
and writing a number with a sign, in groups of digits or in another base. A layout is written as
fill and alignment, sign, `z`, `#`, `0`, width, group mark, precision and form, all of them optional
and in this order.
-/

namespace EntityApi

open Text

inductive Alignment where
  | left
  | right
  | center
  /-- The fill goes between the sign and the digits. -/
  | afterSign
  deriving Repr, DecidableEq

namespace Alignment

def ofChar? : Char → Option Alignment
  | '<' => some left
  | '>' => some right
  | '^' => some center
  | '=' => some afterSign
  | _ => none

end Alignment

structure Layout where
  fill : Char
  align : Alignment
  sign : Option Char
  positiveZero : Bool
  alternate : Bool
  width : Option Nat
  group : Option Char
  precision : Option Nat
  /-- The letter of the form to write the value in; each kind of value has its usual one. -/
  form : Option Char
  deriving Repr, DecidableEq

namespace Layout

/-- The largest width, precision or index that may be written. -/
def largestNumber : Nat := 0x7fffffffffffffff

/-- The number that a text starts with, if there is one. -/
def takeNumber? (s : List Char) : Result (Option Nat × List Char) :=
  let digits := (s.takeWhile fun c => (digitValue? c).isSome).filterMap digitValue?
  let rest := s.dropWhile fun c => (digitValue? c).isSome
  if digits.isEmpty then .ok (none, rest)
  else
    let n := Numeral.ofDigits digits
    if largestNumber < n then mishap .badValue "Too many decimal digits in format string"
    else .ok (some n, rest)

def takeFlag (flag : Char) : List Char → Bool × List Char
  | [] => (false, [])
  | c :: s => if c == flag then (true, s) else (false, c :: s)

def takeSign : List Char → Option Char × List Char
  | [] => (none, [])
  | c :: s => if c == '+' || c == '-' || c == ' ' then (some c, s) else (none, c :: s)

/-- The fill and the alignment, where a fill may stand only before an alignment. -/
def takeAlignment (s : List Char) : Option Char × Option Alignment × List Char :=
  match s with
  | c :: d :: rest =>
    match Alignment.ofChar? d with
    | some a => (some c, some a, rest)
    | none =>
      match Alignment.ofChar? c with
      | some a => (none, some a, d :: rest)
      | none => (none, none, s)
  | [c] =>
    match Alignment.ofChar? c with
    | some a => (none, some a, [])
    | none => (none, none, s)
  | [] => (none, none, [])

/-- At most one of the two marks that separate groups of digits. -/
def takeGroup (s : List Char) : Result (Option Char × List Char) :=
  let (comma, s) := takeFlag ',' s
  let (underscore, s) := takeFlag '_' s
  if underscore && (comma || s.head? == some ',') then
    mishap .badValue "Cannot specify both ',' and '_'."
  else .ok (if comma then some ',' else if underscore then some '_' else none, s)

def takePrecision (s : List Char) : Result (Option Nat × List Char) :=
  match s with
  | '.' :: rest => do
    match ← takeNumber? rest with
    | (none, _) => mishap .badValue "Format specifier missing precision"
    | found => return found
  | _ => .ok (none, s)

/-- A form in an error text. -/
def shownForm (c : Char) : String :=
  if 32 < c.toNat && c.toNat < 128 then String.ofList [c]
  else "\\x" ++ String.ofList (Nat.toDigits 16 c.toNat)

/-- The forms in which digits may be grouped by any mark, and those that only know underscores. -/
def groupable (mark form : Char) : Bool :=
  "defgEG%F".toList.contains form || (mark == '_' && "boxX".toList.contains form)

/-- Reads a layout. `usual` is the form used if none is given; numbers stand on the right. -/
def read (kind : String) (usual : Option Char) (spec : List Char) : Result Layout := do
  let numeric := usual != some 's'
  let (fill, align, s) := takeAlignment spec
  let (sign, s) := takeSign s
  let (positiveZero, s) := takeFlag 'z' s
  let (alternate, s) := takeFlag '#' s
  let (zero, s) := if fill.isNone then takeFlag '0' s else (false, s)
  let (width, s) ← takeNumber? s
  let (group, s) ← takeGroup s
  let (precision, s) ← takePrecision s
  if 1 < s.length then
    mishap .badValue ("Invalid format specifier '" ++ String.ofList spec ++ "' for object of type '" ++
      kind ++ "'")
  let form := s.head?.orElse fun _ => usual
  match group, form with
  | some mark, some c =>
    if !groupable mark c then
      mishap .badValue ("Cannot specify '" ++ String.ofList [mark] ++ "' with '" ++ shownForm c ++ "'.")
  | _, _ => pure ()
  let usualAlign : Alignment :=
    if zero && numeric then .afterSign else if numeric then .right else .left
  return {
    fill := fill.getD (if zero then '0' else ' ')
    align := align.getD usualAlign
    sign := sign, positiveZero := positiveZero, alternate := alternate, width := width
    group := group, precision := precision, form := form }

/-- Fills a text up to the width; `lead` is what the fill comes after in case of `afterSign`. -/
def pad (l : Layout) (lead body : List Char) : List Char :=
  let missing := l.width.getD 0 - (lead.length + body.length)
  let fill (n : Nat) := List.replicate n l.fill
  match l.align with
  | .left => lead ++ body ++ fill missing
  | .right => fill missing ++ lead ++ body
  | .center => fill (missing / 2) ++ lead ++ body ++ fill (missing - missing / 2)
  | .afterSign => lead ++ fill missing ++ body

/-- Puts the mark between groups of digits. The digits come last one first, `room` of them being
free before the next mark. -/
def groupReversed (mark : Char) (size : Nat) : Nat → List Char → List Char
  | _, [] => []
  | 0, d :: ds => mark :: d :: groupReversed mark size (size - 1) ds
  | room + 1, d :: ds => d :: groupReversed mark size room ds

/-- Puts the mark between groups of digits, counted from the right. -/
def grouped (mark : Char) (size : Nat) (digits : List Char) : List Char :=
  (groupReversed mark size size digits.reverse).reverse

/-- How many digits fill a width when they are grouped; a mark never comes first. -/
def digitsFilling (group : Option Char) (size width : Nat) : Nat :=
  if group.isSome then width - (width - 1) / (size + 1) else width

/-- Lays out a number in parts: its sign and base mark, its whole digits, and the rest of it. Zeros
that fill it up are digits like others. -/
def number (l : Layout) (size : Nat) (lead whole rest : List Char) : List Char :=
  let zeros :=
    if l.fill == '0' && l.align == .afterSign then
      digitsFilling l.group size (l.width.getD 0 - lead.length - rest.length) - whole.length
    else 0
  let whole := List.replicate zeros '0' ++ whole
  let whole := match l.group with
    | some mark => grouped mark size whole
    | none => whole
  l.pad lead (whole ++ rest)

def signOf (l : Layout) (negative : Bool) : List Char :=
  if negative then ['-']
  else match l.sign with
    | some '+' => ['+']
    | some ' ' => [' ']
    | _ => []

def unknownForm {α : Type} (kind : String) (form : Option Char) : Result α :=
  mishap .badValue ("Unknown format code '" ++ shownForm (form.getD ' ') ++ "' for object of type '" ++
    kind ++ "'")

/-- A text, cut to the precision and filled up to the width. -/
def text (l : Layout) (s : List Char) : Result (List Char) := do
  if l.form != some 's' then unknownForm "str" l.form
  match l.sign with
  | some ' ' => mishap .badValue "Space not allowed in string format specifier"
  | some _ => mishap .badValue "Sign not allowed in string format specifier"
  | none => pure ()
  if l.positiveZero then
    mishap .badValue "Negative zero coercion (z) not allowed in string format specifier"
  if l.alternate then mishap .badValue "Alternate form (#) not allowed in string format specifier"
  if l.align == .afterSign then
    mishap .badValue "'=' alignment not allowed in string format specifier"
  return l.pad [] (s.take (l.precision.getD s.length))

/-- The base of a form for whole numbers, and the size of its groups of digits. -/
def baseOf? : Char → Option (Nat × Nat)
  | 'b' => some (2, 4)
  | 'o' => some (8, 4)
  | 'x' => some (16, 4)
  | 'X' => some (16, 4)
  | 'd' => some (10, 3)
  | 'n' => some (10, 3)
  | _ => none

/-- The character of a code point. -/
def character (l : Layout) (n : Int) : Result (List Char) := do
  if l.sign.isSome then mishap .badValue "Sign not allowed with integer format specifier 'c'"
  if l.alternate then
    mishap .badValue "Alternate form (#) not allowed with integer format specifier 'c'"
  if largestNumber < n.natAbs then mishap .overflow "Python int too large to convert to C long"
  if n < 0 ∨ 0x110000 ≤ n then mishap .overflow "%c arg not in range(0x110000)"
  return l.pad [] [Char.ofNat n.toNat]

/-- A whole number in the base of the form. -/
def whole (l : Layout) (kind : String) (n : Int) : Result (List Char) := do
  let form := l.form.getD 'd'
  let base := baseOf? form
  if base.isNone && form != 'c' then unknownForm kind l.form
  if l.precision.isSome then
    mishap .badValue "Precision not allowed in integer format specifier"
  if l.positiveZero then
    mishap .badValue "Negative zero coercion (z) not allowed in integer format specifier"
  match base with
  | none => l.character n
  | some (base, size) =>
    let digits ← if base == 10 then (Value.intText? n.natAbs).map String.toList
      else .ok (Nat.toDigits base n.natAbs)
    let mark := if l.alternate && base != 10 then ['0', form] else []
    let digits := if form == 'X' then digits.map Char.toUpper else digits
    return l.number size (l.signOf (decide (n < 0)) ++ mark) digits []

/-- A number that is written in the usual way but for its sign. -/
def plain (l : Layout) (kind : String) (written : List Char) : Result (List Char) := do
  if l.form.isSome || l.precision.isSome then unknownForm kind l.form
  let (negative, unsigned) := Numeral.splitSign written
  return l.number 3 (l.signOf negative) (unsigned.takeWhile Char.isDigit)
    (unsigned.dropWhile Char.isDigit)

/-! ## Real numbers -/

/-- The ways of writing a real number: with an exponent, with a fixed number of places, as a share
of a hundred, or with a count of digits in whichever of the first two ways is shorter. -/
inductive Style where
  | scientific
  | fixed
  | percent
  | general
  deriving Repr, DecidableEq

def Style.ofChar? : Char → Option Style
  | 'e' => some scientific
  | 'E' => some scientific
  | 'f' => some fixed
  | 'F' => some fixed
  | '%' => some percent
  | 'g' => some general
  | 'G' => some general
  | _ => none

/-- The digits before the point, and the rest. The point is left out if nothing follows it, unless
it is wanted. -/
def pointed (wanted : Bool) (parts : List Char × List Char) (exponent : List Char) :
    List Char × List Char :=
  (parts.1, (if parts.2.isEmpty && !wanted then [] else '.' :: parts.2) ++ exponent)

/-- A number with one digit before the point and an exponent. -/
def scientific (l : Layout) (letter : Char) (d : Digits) : List Char × List Char :=
  pointed l.alternate (d.digits.take 1, d.digits.drop 1)
    (letter :: Binary64.exponentText (d.point - 1))

/-- A number with a count of digits, without zeros at the end. `spelledOut` numbers keep a place
after the point. -/
def general (l : Layout) (letter : Char) (spelledOut : Bool) (count : Nat) (d : Digits) :
    List Char × List Char :=
  let trimmed := if l.alternate then d else d.trimmed
  if d.point ≤ -4 ∨ (count : Int) - (if spelledOut then 1 else 0) < d.point then
    l.scientific letter (if trimmed.digits.isEmpty then { trimmed with digits := ['0'] } else trimmed)
  else
    let (whole, fraction) := trimmed.split
    pointed l.alternate (whole, if spelledOut && fraction.isEmpty then ['0'] else fraction) []

/-- The sign, the digits before the point and the rest of a finite number. -/
def written (l : Layout) (style : Style) (letter : Char) (negative : Bool) (num den : Nat) :
    List Char × List Char × List Char :=
  let precision := l.precision.getD 6
  let sign (d : Digits) := l.signOf (negative && !(l.positiveZero && d.isZero))
  match style with
  | .scientific =>
    let d := Digits.ofCount num den (precision + 1)
    (sign d, l.scientific letter d)
  | .general =>
    let d := Digits.ofCount num den (max 1 precision)
    (sign d, l.general letter l.form.isNone (max 1 precision) d)
  | _ =>
    let d := Digits.toPlaces num den precision
    (sign d, pointed l.alternate d.split [])

/-- A hundred times a number, rounded. -/
def hundredfold (x : Binary64) : Binary64 :=
  match x.toExact with
  | .ratio num den => if num == 0 then x else .ofExact (.ratio (num * 100) den)
  | _ => x

/-- The style of a layout for real numbers; `none` is the usual text. -/
def styleFor (l : Layout) (kind : String) : Result (Option Style) :=
  match l.form with
  | none => .ok (l.precision.map fun _ => .general)
  | some 'n' => .ok (some .general)
  | some c =>
    match Style.ofChar? c with
    | some style => .ok (some style)
    | none => unknownForm kind l.form

def largestPrecision : Nat := 0x7fffffff

/-- A real number. Capital forms write it in capitals, and only digits are grouped. -/
def real (l : Layout) (kind : String) (x : Binary64) : Result (List Char) := do
  let style ← l.styleFor kind
  if largestPrecision < l.precision.getD 0 then mishap .badValue "precision too big"
  let capitals := (l.form.map Char.isUpper).getD false
  let cased (s : List Char) : List Char := if capitals then s.map Char.toUpper else s
  let tail := if style == some .percent then ['%'] else []
  let x := if style == some .percent then hundredfold x else x
  match style, x with
  | some style, .finite negative mantissa exponent =>
    let (unitNum, unitDen) := Binary64.powerRatio 2 exponent
    let (sign, whole, rest) := l.written style 'e' negative (mantissa * unitNum) unitDen
    return l.number 3 sign whole (cased rest ++ tail)
  | _, _ =>
    let (negative, unsigned) := Numeral.splitSign x.text.toList
    let negative := negative && !(l.positiveZero && x.isZero)
    let whole := unsigned.takeWhile Char.isDigit
    let rest := unsigned.dropWhile Char.isDigit
    let point := if l.alternate && x.isFinite && !rest.contains '.' then ['.'] else []
    let l := if x.isFinite then l else { l with group := none }
    return l.number 3 (l.signOf negative) whole (point ++ cased rest ++ tail)

/-- A whole number, which the forms of real numbers turn into one. -/
def integer (l : Layout) (kind : String) (n : Int) : Result (List Char) :=
  match l.form.bind Style.ofChar? with
  | none => l.whole kind n
  | some _ =>
    match Binary64.ofRatio (decide (n < 0)) n.natAbs 1 with
    | .infinite _ => mishap .overflow "int too large to convert to float"
    | x => l.real kind x

end Layout

/-- A value as a layout puts it. An empty layout gives the plain text; times take the layout itself
for their text, and values of other kinds have no layouts. -/
def Value.laidOut (spec : List Char) (v : Value) : Result String := do
  if spec.isEmpty then v.text?
  else
    let kind := v.kind
    match v with
    | .text s => return String.ofList (← (← Layout.read kind (some 's') spec).text s.toList)
    | .int n => return String.ofList (← (← Layout.read kind (some 'd') spec).integer kind n)
    | .bool b =>
      return String.ofList (← (← Layout.read kind (some 'd') spec).integer kind (if b then 1 else 0))
    | .real x => return String.ofList (← (← Layout.read kind none spec).real kind x)
    | .decimal d => return String.ofList (← (← Layout.read kind none spec).plain kind d.text.toList)
    | .moment _ | .day _ => return String.ofList spec
    | _ => mishap .badType ("unsupported format string passed to " ++ kind ++ ".__format__")

end EntityApi
