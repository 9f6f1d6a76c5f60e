/-!
The Gregorian calendar, extended backwards to the year 1. Days are counted from 1 January of the
year 1, which is day 1; the last day is 31 December 9999. ISO weeks begin on Monday, and week 1 is
the week of the year's first Thursday.
-/

namespace EntityApi.Calendar

def isLeap (year : Nat) : Bool := year % 4 == 0 && (year % 100 != 0 || year % 400 == 0)

def monthLengths (leap : Bool) : List Nat :=
  [31, if leap then 29 else 28, 31, 30, 31, 30, 31, 31, 30, 31, 30, 31]

/-- The days before 1 January of the year. -/
def daysBeforeYear (year : Nat) : Nat :=
  let y := year - 1
  365 * y + y / 4 - y / 100 + y / 400

def daysBeforeMonth (leap : Bool) (month : Nat) : Nat :=
  ((monthLengths leap).take (month - 1)).foldl (· + ·) 0

/-- The last day of the calendar. -/
def lastDay : Nat := 3652059

/-- The number of 1 January 1970. -/
def epochDay : Nat := 719163

structure Date where
  year : Nat
  month : Nat
  day : Nat
  deriving Repr, DecidableEq

namespace Date

def Valid (d : Date) : Prop :=
  1 ≤ d.year ∧ d.year ≤ 9999 ∧ 1 ≤ d.month ∧ d.month ≤ 12 ∧ 1 ≤ d.day ∧
    d.day ≤ (monthLengths (isLeap d.year)).getD (d.month - 1) 0

instance (d : Date) : Decidable d.Valid := inferInstanceAs (Decidable (_ ∧ _))

def toDay (d : Date) : Nat := daysBeforeYear d.year + daysBeforeMonth (isLeap d.year) d.month + d.day

end Date

/-- The month and the day of the month, given the days left over after whole months. -/
def splitMonths : List Nat → Nat → Nat → Nat × Nat
  | [], month, rest => (month, rest + 1)
  | n :: ns, month, rest => if rest < n then (month, rest + 1) else splitMonths ns (month + 1) (rest - n)

/-- The year of a day and the days of that year before it, through the cycles of 400, 100, 4 and 1
years. The last day of a cycle that ends in a leap year falls just outside the shorter cycles. -/
def splitYear (day : Nat) : Nat × Nat :=
  let n := day - 1
  let a := n / 146097
  let n := n % 146097
  let b := min (n / 36524) 3
  let n := n - 36524 * b
  let c := n / 1461
  let n := n % 1461
  let d := min (n / 365) 3
  (400 * a + 100 * b + 4 * c + d + 1, n - 365 * d)

def ofDay (day : Nat) : Date :=
  let (year, rest) := splitYear day
  let (month, dayOfMonth) := splitMonths (monthLengths (isLeap year)) 1 rest
  ⟨year, month, dayOfMonth⟩

/-- The Monday that begins week 1 of the year, as a day number; it may lie in the year before. -/
def firstMonday (year : Nat) : Int :=
  let newYear : Int := daysBeforeYear year + 1
  let weekday := (newYear + 6) % 7
  let monday := newYear - weekday
  if 3 < weekday then monday + 7 else monday

/-- A year has 53 weeks when it starts on a Thursday, or on a Wednesday in a leap year. -/
def weeksIn (year : Nat) : Nat :=
  let weekday := (daysBeforeYear year + 7) % 7
  if weekday == 3 || (weekday == 2 && isLeap year) then 53 else 52

/-- The day number of a week date, if there is such a date. -/
def ofWeek? (year week weekday : Nat) : Option Nat :=
  if 1 ≤ year ∧ year ≤ 9999 ∧ 1 ≤ week ∧ week ≤ weeksIn year ∧ 1 ≤ weekday ∧ weekday ≤ 7 then
    let day := firstMonday year + 7 * (week - 1 : Nat) + (weekday - 1 : Nat)
    if 1 ≤ day ∧ day ≤ lastDay then some day.toNat else none
  else none

end EntityApi.Calendar
