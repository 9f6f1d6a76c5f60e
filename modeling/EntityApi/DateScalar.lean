import EntityApi.Time.Iso
import EntityApi.Value.Shown

/-!
The `Date` scalar. Clients exchange epoch milliseconds, records hold moments with an offset. Read
are moments, numbers of milliseconds and their numerals, and ISO 8601 text, in which `Z` stands for
a zero offset. Written are the whole milliseconds of the instant; a day counts from its start in
universal time.
-/

namespace EntityApi.DateScalar

def ofMillis (ms : Int) : Result Moment :=
  match Moment.ofMillis? ms with
  | some m => .ok m
  | none => mishap .overflow "date value out of range"

/-- Every `Z` written out as a zero offset. -/
def expandZulu (s : List Char) : List Char := s.flatMap fun c => if c == 'Z' then "+00:00".toList else [c]

def ofIso (s : List Char) : Result Moment :=
  match Iso.momentOf? (expandZulu s) with
  | some m => .ok m.orUtc
  | none => mishap .badValue ("Invalid isoformat string: " ++
      Text.quoted (String.ofList (expandZulu s)))

def parse : Value → Result Moment
  | .moment m => .ok m.orUtc
  | .bool b => do refuse (.notDate (← (Value.bool b).shown?))
  | .int n => ofMillis n
  | .real x =>
    match x.truncate? with
    | some n => ofMillis n
    | none =>
      if x = .nan then mishap .badValue "cannot convert float NaN to integer"
      else mishap .overflow "cannot convert float infinity to integer"
  | .text s =>
    let trimmed := Text.trimChars s.toList
    match Numeral.readInteger trimmed with
    | .ok n => ofMillis n
    | .error _ => ofIso trimmed
  | v => refuse (.notDate v.kind)

def serialize : Value → Result Int
  | .moment m => .ok m.toMillis
  | .day d => .ok d.toMillis
  | v => do return (← parse v).toMillis

end EntityApi.DateScalar
