import EntityApi.Time.Calendar

/-!
Days, clock readings and instants. A `Moment` is what a clock shows, counted in microseconds from
the epoch (the start of 1970), with the offset of that clock from universal time if it is known.
Its instant is the reading less the offset; a reading without an offset is taken as universal time.
Epoch milliseconds are the whole milliseconds of the instant, rounded down.
-/

namespace EntityApi

structure Day where
  number : Nat
  inCalendar : 1 ≤ number ∧ number ≤ Calendar.lastDay
  deriving Repr, DecidableEq

namespace Day

def ofNumber? (n : Nat) : Option Day :=
  if h : 1 ≤ n ∧ n ≤ Calendar.lastDay then some ⟨n, h⟩ else none

def ofDate? (d : Calendar.Date) : Option Day := if d.Valid then ofNumber? d.toDay else none

def date (d : Day) : Calendar.Date := Calendar.ofDay d.number

/-- Days since the epoch. -/
def sinceEpoch (d : Day) : Int := (d.number : Int) - Calendar.epochDay

end Day

/-- An offset from universal time in microseconds, less than a day either way. -/
structure Offset where
  micros : Int
  lessThanDay : -86400000000 < micros ∧ micros < 86400000000
  deriving Repr, DecidableEq

namespace Offset

def ofMicros? (n : Int) : Option Offset :=
  if h : -86400000000 < n ∧ n < 86400000000 then some ⟨n, h⟩ else none

def utc : Offset := ⟨0, by decide⟩

end Offset

namespace Moment

def perDay : Int := 86400000000

def first : Int := -62135596800000000

def last : Int := 253402300799999999

end Moment

structure Moment where
  reading : Int
  offset : Option Offset
  inCalendar : Moment.first ≤ reading ∧ reading ≤ Moment.last
  deriving Repr, DecidableEq

namespace Moment

def ofReading? (reading : Int) (offset : Option Offset) : Option Moment :=
  if h : first ≤ reading ∧ reading ≤ last then some ⟨reading, offset, h⟩ else none

structure Clock where
  hour : Nat
  minute : Nat
  second : Nat
  micro : Nat
  deriving Repr, DecidableEq

namespace Clock

def Valid (c : Clock) : Prop := c.hour < 24 ∧ c.minute < 60 ∧ c.second < 60 ∧ c.micro < 1000000

instance (c : Clock) : Decidable c.Valid := inferInstanceAs (Decidable (_ ∧ _))

def toMicros (c : Clock) : Nat := ((c.hour * 60 + c.minute) * 60 + c.second) * 1000000 + c.micro

def ofMicros (n : Nat) : Clock :=
  ⟨n / 3600000000, n / 60000000 % 60, n / 1000000 % 60, n % 1000000⟩

end Clock

/-- The moment that a calendar day and a clock show. -/
def ofParts? (day : Day) (clock : Clock) (offset : Option Offset) : Option Moment :=
  if clock.Valid then ofReading? (day.sinceEpoch * perDay + clock.toMicros) offset else none

def dayNumber (m : Moment) : Nat := (m.reading / perDay + Calendar.epochDay).toNat

def date (m : Moment) : Calendar.Date := Calendar.ofDay m.dayNumber

def clock (m : Moment) : Clock := Clock.ofMicros (m.reading % perDay).toNat

/-- Microseconds of universal time since the epoch. -/
def instant (m : Moment) : Int := m.reading - (m.offset.map Offset.micros).getD 0

/-- A reading without an offset, taken as universal time. -/
def orUtc (m : Moment) : Moment :=
  match m.offset with
  | some _ => m
  | none => { m with offset := some Offset.utc }

/-- The moment of the epoch milliseconds, if the calendar reaches it. -/
def ofMillis? (ms : Int) : Option Moment := ofReading? (ms * 1000) (some Offset.utc)

def toMillis (m : Moment) : Int := m.instant / 1000

theorem instant_orUtc (m : Moment) : m.orUtc.instant = m.instant := by
  rcases m with ⟨r, o, h⟩
  cases o <;> simp [orUtc, instant, Offset.utc]

end Moment

/-- Epoch milliseconds of the start of a day in universal time. -/
def Day.toMillis (d : Day) : Int := d.sinceEpoch * 86400000

end EntityApi
