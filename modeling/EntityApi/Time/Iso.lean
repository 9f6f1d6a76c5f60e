import EntityApi.Text.Digit
import EntityApi.Time.Moment

/-!
ISO 8601 text of days and moments. Written: `2024-01-02`, and `2024-01-02T03:04:05` with six
fraction digits if there are microseconds and the offset if there is one. Read: calendar or week
dates with or without hyphens, then any one character, then a time of two-digit parts with or
without colons, a fraction after the seconds, and an offset of the same form or `Z`.
-/

namespace EntityApi.Iso

open Text

/-- The last `width` decimal digits. -/
def padded (width n : Nat) : List Char :=
  let digits := Nat.toDigits 10 n
  List.replicate (width - digits.length) '0' ++ digits

def dateText (d : Calendar.Date) : List Char :=
  padded 4 d.year ++ '-' :: padded 2 d.month ++ '-' :: padded 2 d.day

/-- Hours and minutes, and more only if it is not zero. -/
def offsetText (o : Offset) : List Char :=
  let n := o.micros.natAbs
  let minutes := n / 60000000
  let seconds := n / 1000000 % 60
  let micros := n % 1000000
  (if o.micros < 0 then '-' else '+') :: padded 2 (minutes / 60) ++ ':' :: padded 2 (minutes % 60) ++
    (if seconds == 0 && micros == 0 then [] else ':' :: padded 2 seconds) ++
    (if micros == 0 then [] else '.' :: padded 6 micros)

def momentText (mark : Char) (m : Moment) : List Char :=
  let c := m.clock
  dateText m.date ++ mark :: padded 2 c.hour ++ ':' :: padded 2 c.minute ++ ':' :: padded 2 c.second ++
    (if c.micro == 0 then [] else '.' :: padded 6 c.micro) ++
    (match m.offset with
      | some o => offsetText o
      | none => [])

/-! ## Reading -/

/-- Exactly `count` digits, and the rest. -/
def takeDigits? : Nat → List Char → Option (Nat × List Char)
  | 0, s => some (0, s)
  | count + 1, c :: s => do
    let d ← asciiDigit? c
    let (n, rest) ← takeDigits? count s
    return (d * Nat.pow 10 count + n, rest)
  | _ + 1, [] => none

/-- A whole calendar or week date; hyphens stand between all parts or nowhere. -/
def dayOf? (s : List Char) : Option Day := do
  let (year, rest) ← takeDigits? 4 s
  let (hyphens, rest) := match rest with
    | '-' :: more => (true, more)
    | _ => (false, rest)
  let afterHyphen? (t : List Char) : Option (List Char) :=
    if hyphens then
      match t with
      | '-' :: more => some more
      | _ => none
    else some t
  match rest with
  | 'W' :: more =>
    let (week, more) ← takeDigits? 2 more
    if more.isEmpty then (Calendar.ofWeek? year week 1).bind Day.ofNumber?
    else
      let (weekday, more) ← takeDigits? 1 (← afterHyphen? more)
      if more.isEmpty then (Calendar.ofWeek? year week weekday).bind Day.ofNumber? else none
  | _ =>
    let (month, rest) ← takeDigits? 2 rest
    let (day, rest) ← takeDigits? 2 (← afterHyphen? rest)
    if rest.isEmpty then Day.ofDate? ⟨year, month, day⟩ else none

/-- How many characters of a text belong to its date. Week dates may have a weekday or not; what
follows the week decides, two digits after a hyphen being taken as hours. -/
def dateLength (s : List Char) : Nat :=
  if s.length == 7 then 7
  else if s[4]? == some '-' then
    if s[5]? == some 'W' then
      if s[8]? == some '-' && !(s[10]?.any isAsciiDigit) then 10 else 8
    else 10
  else if s[4]? == some 'W' then
    let digits := ((s.drop 7).takeWhile isAsciiDigit).length
    if digits < 2 then 7 + digits
    else if digits % 2 == 1 then 7 else 8
  else 8

/-- Microseconds from the digits after the point; digits past the sixth are dropped. -/
def fraction? (s : List Char) : Option Nat :=
  if s.isEmpty || !s.all isAsciiDigit then none
  else
    let shown := s.take 6
    (takeDigits? shown.length shown).map fun (n, _) => n * Nat.pow 10 (6 - shown.length)

def fractionPart? : List Char → Option Nat
  | [] => some 0
  | c :: s => if c == '.' || c == ',' then fraction? s else none

/-- Hours, then minutes, then seconds with a fraction; each part may be missing if all after it
are. Colons stand between all parts or nowhere. -/
def clockOf? (s : List Char) : Option Moment.Clock := do
  let (hour, rest) ← takeDigits? 2 s
  if rest.isEmpty then return ⟨hour, 0, 0, 0⟩
  let colons := rest.head? == some ':'
  let (minute, rest) ← takeDigits? 2 (if colons then rest.drop 1 else rest)
  if rest.isEmpty then return ⟨hour, minute, 0, 0⟩
  if colons && rest.head? != some ':' then none
  let (second, rest) ← takeDigits? 2 (if colons then rest.drop 1 else rest)
  return ⟨hour, minute, second, ← fractionPart? rest⟩

def offsetOf? (negative : Bool) (s : List Char) : Option Offset := do
  let c ← clockOf? s
  Offset.ofMicros? (if negative then -(c.toMicros : Int) else c.toMicros)

def isZoneMark (c : Char) : Bool := c == '+' || c == '-' || c == 'Z'

/-- A time of day and the offset that follows it, if any. -/
def timeOf? (s : List Char) : Option (Moment.Clock × Option Offset) := do
  let clock ← clockOf? (s.takeWhile (!isZoneMark ·))
  match s.dropWhile (!isZoneMark ·) with
  | [] => return (clock, none)
  | ['Z'] => return (clock, some Offset.utc)
  | 'Z' :: _ => none
  | mark :: zone => return (clock, some (← offsetOf? (mark == '-') zone))

/-- A date alone, or a date, one character and a time. -/
def momentOf? (s : List Char) : Option Moment := do
  if s.length < 7 then none
  let size := dateLength s
  let day ← dayOf? (s.take size)
  let rest := s.drop (size + 1)
  if rest.isEmpty then Moment.ofParts? day ⟨0, 0, 0, 0⟩ none
  else
    let (clock, offset) ← timeOf? rest
    Moment.ofParts? day clock offset

end EntityApi.Iso
