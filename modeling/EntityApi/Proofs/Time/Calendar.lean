import EntityApi.Time.Calendar
import Mathlib.Order.Monotone.Basic

/-! # Dates and day numbers

The days of the calendar are numbered without gaps. A year follows the one before it
by that year's length (`daysBeforeYear_succ`), so a day number belongs to one year and
one day of it, and a day of the year to one month and one day of that. Both are what
the cycles of the calendar compute (`splitYear_eq`, `splitMonths_eq`). A date is read
back from its number (`ofDay_toDay`), and every number up to the last day is that of a
date (`toDay_ofDay`). -/
namespace EntityApi.Calendar

/-! ## Years -/

def yearLength (year : Nat) : Nat := if isLeap year then 366 else 365

/-- The year after `a` cycles of 400 years, `b` of 100, `c` of 4 and `d` single years. -/
def yearAt (a b c d : Nat) : Nat := 400 * a + 100 * b + 4 * c + d + 1

section

variable {a b c d : Nat}

theorem exists_yearAt {year : Nat} (h : 1 ≤ year) :
    ∃ a b c d, b ≤ 3 ∧ c ≤ 24 ∧ d ≤ 3 ∧ year = yearAt a b c d := by
  refine ⟨(year - 1) / 400, (year - 1) % 400 / 100, (year - 1) % 100 / 4, (year - 1) % 4, ?_⟩
  unfold yearAt
  omega

theorem daysBeforeYear_yearAt (hb : b ≤ 3) (hc : c ≤ 24) (hd : d ≤ 3) :
    daysBeforeYear (yearAt a b c d) = 146097 * a + 36524 * b + 1461 * c + 365 * d := by
  have hfour : (yearAt a b c d - 1) / 4 = 100 * a + 25 * b + c := by unfold yearAt; omega
  have hhundred : (yearAt a b c d - 1) / 100 = 4 * a + b := by unfold yearAt; omega
  have hcycle : (yearAt a b c d - 1) / 400 = a := by unfold yearAt; omega
  unfold daysBeforeYear
  dsimp only
  rw [hfour, hhundred, hcycle]
  unfold yearAt
  omega

/-- The last year of a cycle of 4 is a leap year, unless it ends a cycle of 100 and none of 400. -/
theorem yearLength_yearAt (hb : b ≤ 3) (hc : c ≤ 24) (hd : d ≤ 3) :
    yearLength (yearAt a b c d) = if d = 3 ∧ (c ≠ 24 ∨ b = 3) then 366 else 365 := by
  have hleap : isLeap (yearAt a b c d) = true ↔ d = 3 ∧ (c ≠ 24 ∨ b = 3) := by
    simp only [isLeap, yearAt, Bool.and_eq_true, Bool.or_eq_true, beq_iff_eq, bne_iff_ne]
    omega
  unfold yearLength
  simp only [hleap]

theorem splitYear_yearAt (hb : b ≤ 3) (hc : c ≤ 24) (hd : d ≤ 3) {rest : Nat}
    (h : rest < yearLength (yearAt a b c d)) :
    splitYear (146097 * a + 36524 * b + 1461 * c + 365 * d + rest + 1) = (yearAt a b c d, rest) := by
  rw [yearLength_yearAt hb hc hd] at h
  have hrest : rest < 365 ∨ rest = 365 ∧ d = 3 ∧ (c ≠ 24 ∨ b = 3) := by
    split at h <;> omega
  -- each quotient leaves the part of the number that the shorter cycles make up
  have hdiv : (146097 * a + 36524 * b + 1461 * c + 365 * d + rest) / 146097 = a := by omega
  have hmod : (146097 * a + 36524 * b + 1461 * c + 365 * d + rest) % 146097 =
      36524 * b + (1461 * c + 365 * d + rest) := by omega
  have hb' : min ((36524 * b + (1461 * c + 365 * d + rest)) / 36524) 3 = b := by omega
  have hsub : 36524 * b + (1461 * c + 365 * d + rest) - 36524 * b = 1461 * c + 365 * d + rest := by
    omega
  have hc' : (1461 * c + 365 * d + rest) / 1461 = c := by omega
  have hmod' : (1461 * c + 365 * d + rest) % 1461 = 365 * d + rest := by omega
  have hd' : min ((365 * d + rest) / 365) 3 = d := by omega
  unfold splitYear
  dsimp only
  rw [Nat.add_sub_cancel, hdiv, hmod, hb', hsub, hc', hmod', hd', Nat.add_sub_cancel_left]
  rfl

end

theorem daysBeforeYear_succ {year : Nat} (h : 1 ≤ year) :
    daysBeforeYear (year + 1) = daysBeforeYear year + yearLength year := by
  obtain ⟨a, b, c, d, hb, hc, hd, rfl⟩ := exists_yearAt h
  rw [daysBeforeYear_yearAt hb hc hd, yearLength_yearAt hb hc hd]
  by_cases hthree : d = 3
  · by_cases hlast : c = 24
    · by_cases hcentury : b = 3
      · have hnext : yearAt a b c d + 1 = yearAt (a + 1) 0 0 0 := by unfold yearAt; omega
        rw [hnext, daysBeforeYear_yearAt (by omega) (by omega) (by omega), if_pos (by omega)]
        omega
      · have hnext : yearAt a b c d + 1 = yearAt a (b + 1) 0 0 := by unfold yearAt; omega
        rw [hnext, daysBeforeYear_yearAt (by omega) (by omega) (by omega), if_neg (by omega)]
        omega
    · have hnext : yearAt a b c d + 1 = yearAt a b (c + 1) 0 := by unfold yearAt; omega
      rw [hnext, daysBeforeYear_yearAt (by omega) (by omega) (by omega), if_pos (by omega)]
      omega
  · have hnext : yearAt a b c d + 1 = yearAt a b c (d + 1) := by unfold yearAt; omega
    rw [hnext, daysBeforeYear_yearAt (by omega) (by omega) (by omega), if_neg (by omega)]
    omega

theorem daysBeforeYear_le {year other : Nat} (h : 1 ≤ year) (hle : year ≤ other) :
    daysBeforeYear year ≤ daysBeforeYear other := by
  induction other, hle using Nat.le_induction with
  | base => exact Nat.le_refl _
  | succ other hle ih =>
    rw [daysBeforeYear_succ (Nat.le_trans h hle)]
    omega

/-- The year of a day and its place in the year are read back from the number of the day. -/
theorem splitYear_eq {year rest : Nat} (h : 1 ≤ year) (hrest : rest < yearLength year) :
    splitYear (daysBeforeYear year + rest + 1) = (year, rest) := by
  obtain ⟨a, b, c, d, hb, hc, hd, rfl⟩ := exists_yearAt h
  rw [daysBeforeYear_yearAt hb hc hd]
  exact splitYear_yearAt hb hc hd hrest

/-- Every day belongs to a year. -/
theorem exists_year (n : Nat) :
    ∃ year rest, 1 ≤ year ∧ rest < yearLength year ∧ n = daysBeforeYear year + rest := by
  induction n with
  | zero => exact ⟨1, 0, by decide, by decide, by decide⟩
  | succ n ih =>
    obtain ⟨year, rest, hyear, hrest, rfl⟩ := ih
    by_cases hlast : rest + 1 < yearLength year
    · exact ⟨year, rest + 1, hyear, hlast, rfl⟩
    · refine ⟨year + 1, 0, by omega, ?_, ?_⟩
      · unfold yearLength
        split <;> decide
      · rw [daysBeforeYear_succ hyear]
        omega

/-! ## Months -/

/-- The days of all the months in front of one. -/
def total (lengths : List Nat) : Nat := lengths.foldl (· + ·) 0

@[simp] theorem total_nil : total [] = 0 := rfl

@[simp] theorem total_cons (n : Nat) (lengths : List Nat) : total (n :: lengths) = n + total lengths := by
  have hstart : ∀ (l : List Nat) (start : Nat), l.foldl (· + ·) start = start + total l := by
    intro l
    induction l with
    | nil => exact fun _ => rfl
    | cons m l ih =>
      intro start
      unfold total
      rw [List.foldl_cons, List.foldl_cons, ih, ih (0 + m)]
      omega
  unfold total
  rw [List.foldl_cons, hstart, Nat.zero_add]
  rfl

theorem splitMonths_eq {lengths : List Nat} {k rest : Nat} (h : rest < lengths.getD k 0) (month : Nat) :
    splitMonths lengths month (total (lengths.take k) + rest) = (month + k, rest + 1) := by
  induction lengths generalizing k month with
  | nil => simp at h
  | cons n lengths ih =>
    cases k with
    | zero =>
      have hrest : rest < n := h
      simp only [List.take_zero, total_nil, Nat.zero_add, Nat.add_zero, splitMonths, if_pos hrest]
    | succ k =>
      rw [List.take_succ_cons, total_cons, splitMonths, if_neg (by omega)]
      have hsub : n + total (lengths.take k) + rest - n = total (lengths.take k) + rest := by omega
      rw [hsub, ih h, Nat.add_assoc, Nat.add_comm 1 k]

/-- Every day of a year belongs to a month. -/
theorem exists_month {lengths : List Nat} {n : Nat} (h : n < total lengths) :
    ∃ k rest, k < lengths.length ∧ rest < lengths.getD k 0 ∧ n = total (lengths.take k) + rest := by
  induction lengths generalizing n with
  | nil => exact absurd h (Nat.not_lt_zero n)
  | cons m lengths ih =>
    rw [total_cons] at h
    by_cases hfirst : n < m
    · exact ⟨0, n, Nat.succ_pos _, hfirst, (Nat.zero_add n).symm⟩
    · obtain ⟨k, rest, hk, hrest, hn⟩ := ih (n := n - m) (by omega)
      refine ⟨k + 1, rest, Nat.succ_lt_succ hk, hrest, ?_⟩
      rw [List.take_succ_cons, total_cons]
      omega

theorem total_take_le {lengths : List Nat} {k rest : Nat} (h : rest < lengths.getD k 0) :
    total (lengths.take k) + rest < total lengths := by
  induction lengths generalizing k with
  | nil => simp at h
  | cons n lengths ih =>
    cases k with
    | zero =>
      have hrest : rest < n := h
      rw [List.take_zero, total_nil, total_cons]
      omega
    | succ k =>
      have hlater := ih (k := k) h
      rw [List.take_succ_cons, total_cons, total_cons]
      omega

theorem total_monthLengths (year : Nat) : total (monthLengths (isLeap year)) = yearLength year := by
  unfold yearLength
  cases isLeap year <;> rfl

/-! ## Dates -/

/-- A date that is valid, with its month and day counted from zero. -/
theorem Date.valid_iff {d : Date} : d.Valid ↔ ∃ k rest, d = ⟨d.year, k + 1, rest + 1⟩ ∧
    1 ≤ d.year ∧ d.year ≤ 9999 ∧ k < 12 ∧ rest < (monthLengths (isLeap d.year)).getD k 0 := by
  obtain ⟨year, month, day⟩ := d
  constructor
  · rintro ⟨hfirst, hlast, hmonth, hmonth', hday, hday'⟩
    dsimp only at hfirst hlast hmonth hmonth' hday hday'
    refine ⟨month - 1, day - 1, ?_, hfirst, hlast, by omega, ?_⟩
    · rw [Nat.sub_add_cancel hmonth, Nat.sub_add_cancel hday]
    · exact Nat.lt_of_lt_of_le (Nat.sub_lt hday Nat.one_pos) hday'
  · rintro ⟨k, rest, heq, hfirst, hlast, hk, hrest⟩
    cases heq
    exact ⟨hfirst, hlast, Nat.succ_pos k, hk, Nat.succ_pos rest, hrest⟩

theorem toDay_mk (year k rest : Nat) : Date.toDay ⟨year, k + 1, rest + 1⟩ =
    daysBeforeYear year + (total ((monthLengths (isLeap year)).take k) + rest) + 1 := by
  show daysBeforeYear year + total ((monthLengths (isLeap year)).take k) + (rest + 1) = _
  omega

theorem daysBeforeYear_end : daysBeforeYear 10000 = lastDay := rfl

theorem toDay_inCalendar {d : Date} (h : d.Valid) : 1 ≤ d.toDay ∧ d.toDay ≤ lastDay := by
  obtain ⟨k, rest, heq, hfirst, hlast, _, hrest⟩ := Date.valid_iff.mp h
  have hyear := total_take_le hrest
  have hend := daysBeforeYear_le (Nat.succ_pos d.year) (Nat.succ_le_succ hlast)
  rw [total_monthLengths] at hyear
  rw [daysBeforeYear_succ hfirst, daysBeforeYear_end] at hend
  rw [heq, toDay_mk]
  omega

/-- A valid date is read back from its number. -/
theorem ofDay_toDay {d : Date} (h : d.Valid) : ofDay d.toDay = d := by
  obtain ⟨k, rest, heq, hfirst, _, _, hrest⟩ := Date.valid_iff.mp h
  have hyear := total_take_le hrest
  rw [total_monthLengths] at hyear
  have hday : d.toDay = daysBeforeYear d.year +
      (total ((monthLengths (isLeap d.year)).take k) + rest) + 1 := by
    rw [heq, toDay_mk]
  rw [hday, ofDay, splitYear_eq hfirst hyear]
  dsimp only
  rw [splitMonths_eq hrest, Nat.add_comm 1 k]
  exact heq.symm

/-- Every number of the calendar is that of a valid date. -/
theorem exists_date {n : Nat} (hfirst : 1 ≤ n) (hlast : n ≤ lastDay) : ∃ d : Date, d.Valid ∧ d.toDay = n := by
  obtain ⟨year, inYear, hyear, hlt, hn⟩ := exists_year (n - 1)
  have hmonths : inYear < total (monthLengths (isLeap year)) := by rwa [total_monthLengths]
  obtain ⟨k, rest, hk, hrest, rfl⟩ := exists_month hmonths
  have hle : year ≤ 9999 := by
    by_contra hafter
    have hend := daysBeforeYear_le (by decide : 1 ≤ 10000) (by omega : 10000 ≤ year)
    rw [daysBeforeYear_end] at hend
    omega
  refine ⟨⟨year, k + 1, rest + 1⟩, Date.valid_iff.mpr ⟨k, rest, rfl, hyear, hle, hk, hrest⟩, ?_⟩
  rw [toDay_mk]
  omega

theorem valid_ofDay {n : Nat} (hfirst : 1 ≤ n) (hlast : n ≤ lastDay) : (ofDay n).Valid := by
  obtain ⟨d, hd, rfl⟩ := exists_date hfirst hlast
  rwa [ofDay_toDay hd]

theorem toDay_ofDay {n : Nat} (hfirst : 1 ≤ n) (hlast : n ≤ lastDay) : (ofDay n).toDay = n := by
  obtain ⟨d, hd, rfl⟩ := exists_date hfirst hlast
  rw [ofDay_toDay hd]

end EntityApi.Calendar
