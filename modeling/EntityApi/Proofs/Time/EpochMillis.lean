import EntityApi.DateScalar
import EntityApi.Proofs.Number.Numerals
import EntityApi.Proofs.Results
import EntityApi.Proofs.Text.Blanks
import EntityApi.Proofs.Time.Calendar
import EntityApi.Proofs.Value.Texts

/-! # Epoch milliseconds

A moment is what a date, a clock and an offset show (`exists_ofFields?`), and the other
way round (`ofFields?_date_clock`). Its instant counts the days of the calendar, so its
milliseconds are those of the calendar too: the whole ones of the instant, rounded down
on both sides of the epoch. Milliseconds are read as a number and as its numeral, up to
the two ends of the calendar, and are given back unchanged (`millis_round_trip`). -/
namespace EntityApi

namespace Moment

/-! ## What a clock shows -/

namespace Clock

theorem toMicros_lt {c : Clock} (h : c.Valid) : c.toMicros < 86400000000 := by
  obtain ⟨hhour, hminute, hsecond, hmicro⟩ := h
  unfold toMicros
  omega

theorem ofMicros_toMicros {c : Clock} (h : c.Valid) : ofMicros c.toMicros = c := by
  obtain ⟨hhour, hminute, hsecond, hmicro⟩ := h
  obtain ⟨hour, minute, second, micro⟩ := c
  simp only [ofMicros, toMicros, mk.injEq] at *
  omega

theorem toMicros_ofMicros (n : Nat) : (ofMicros n).toMicros = n := by
  simp only [ofMicros, toMicros]
  omega

theorem valid_ofMicros {n : Nat} (h : n < 86400000000) : (ofMicros n).Valid := by
  simp only [ofMicros, Valid]
  omega

end Clock

/-- The moment that a date and a clock with an offset show. -/
def ofFields? (d : Calendar.Date) (c : Clock) (o : Option Offset) : Option Moment :=
  (Day.ofDate? d).bind fun day => ofParts? day c o

/-- The instant of a date, a clock and an offset, in microseconds: whole days since the epoch, the
time of the day, and the offset back. -/
def instantOf (d : Calendar.Date) (c : Clock) (o : Option Offset) : Int :=
  ((d.toDay : Int) - Calendar.epochDay) * perDay + c.toMicros - (o.map Offset.micros).getD 0

section

variable {d : Calendar.Date} {c : Clock}

/-- Every date and clock are shown by a moment, which shows nothing else. -/
theorem exists_ofFields? (hd : d.Valid) (hc : c.Valid) (o : Option Offset) :
    ∃ m, ofFields? d c o = some m ∧ m.date = d ∧ m.clock = c ∧ m.offset = o ∧
      m.instant = instantOf d c o := by
  have hday := Calendar.toDay_inCalendar hd
  have hlt := Clock.toMicros_lt hc
  have hcalendar : first ≤ ((d.toDay : Int) - Calendar.epochDay) * perDay + c.toMicros ∧
      ((d.toDay : Int) - Calendar.epochDay) * perDay + c.toMicros ≤ last := by
    simp only [first, last, perDay, Calendar.epochDay, Calendar.lastDay] at *
    omega
  have hnumber : dayNumber ⟨((d.toDay : Int) - Calendar.epochDay) * perDay + c.toMicros, o, hcalendar⟩ =
      d.toDay := by
    simp only [dayNumber, perDay, Calendar.epochDay]
    omega
  have hrest : ((((d.toDay : Int) - Calendar.epochDay) * perDay + c.toMicros) % perDay).toNat =
      c.toMicros := by
    simp only [perDay, Calendar.epochDay]
    omega
  refine ⟨⟨((d.toDay : Int) - Calendar.epochDay) * perDay + c.toMicros, o, hcalendar⟩, ?_, ?_, ?_, rfl, rfl⟩
  · unfold ofFields? Day.ofDate? Day.ofNumber? ofParts? ofReading?
    rw [if_pos hd, dif_pos hday, Option.bind_some, if_pos hc]
    exact dif_pos hcalendar
  · rw [date, hnumber]
    exact Calendar.ofDay_toDay hd
  · rw [clock, hrest]
    exact Clock.ofMicros_toMicros hc

end

section

variable (m : Moment)

theorem dayNumber_inCalendar : 1 ≤ m.dayNumber ∧ m.dayNumber ≤ Calendar.lastDay := by
  have h := m.inCalendar
  simp only [first, last] at h
  simp only [dayNumber, perDay, Calendar.epochDay, Calendar.lastDay]
  omega

theorem date_valid : m.date.Valid :=
  Calendar.valid_ofDay m.dayNumber_inCalendar.1 m.dayNumber_inCalendar.2

theorem clock_valid : m.clock.Valid := by
  refine Clock.valid_ofMicros ?_
  simp only [perDay]
  omega

/-- A moment is made up of what it shows. -/
theorem ofFields?_date_clock : ofFields? m.date m.clock m.offset = some m := by
  obtain ⟨n, hn, _, _, hoffset, hinstant⟩ := exists_ofFields? m.date_valid m.clock_valid m.offset
  rw [hn]
  have hreading : n.reading = m.reading := by
    have hday : (m.date.toDay : Int) = m.reading / perDay + Calendar.epochDay := by
      have hnumber := m.dayNumber_inCalendar
      rw [date, Calendar.toDay_ofDay hnumber.1 hnumber.2]
      simp only [dayNumber] at hnumber ⊢
      omega
    have hclock : (m.clock.toMicros : Int) = m.reading % perDay := by
      rw [clock, Clock.toMicros_ofMicros]
      simp only [perDay]
      omega
    rw [instant, instantOf, hoffset, hday, hclock] at hinstant
    simp only [perDay] at hinstant
    omega
  obtain ⟨reading, offset, _⟩ := m
  obtain ⟨reading', offset', _⟩ := n
  cases hreading
  cases hoffset
  rfl

end

/-- The instant of a moment is that of the date, the clock and the offset it shows. -/
theorem instant_eq_instantOf (m : Moment) : m.instant = instantOf m.date m.clock m.offset := by
  obtain ⟨n, hn, _, _, _, hinstant⟩ := exists_ofFields? m.date_valid m.clock_valid m.offset
  rw [ofFields?_date_clock] at hn
  cases hn
  exact hinstant

/-! ## Milliseconds -/

/-- The milliseconds that the calendar reaches. -/
def Reached (ms : Int) : Prop := -62135596800000 ≤ ms ∧ ms ≤ 253402300799999

instance (ms : Int) : Decidable (Reached ms) := inferInstanceAs (Decidable (_ ∧ _))

theorem reached_iff {ms : Int} : Reached ms ↔ first ≤ ms * 1000 ∧ ms * 1000 ≤ last := by
  unfold Reached first last
  omega

theorem exists_ofMillis? {ms : Int} (h : Reached ms) :
    ∃ m, ofMillis? ms = some m ∧ m.instant = 1000 * ms ∧ m.offset = some Offset.utc := by
  refine ⟨_, dif_pos (reached_iff.mp h), ?_, rfl⟩
  show ms * 1000 - 0 = 1000 * ms
  omega

theorem ofMillis?_eq_none {ms : Int} (h : ¬Reached ms) : ofMillis? ms = none :=
  dif_neg fun hcalendar => h (reached_iff.mpr hcalendar)

theorem reached_of_ofMillis? {ms : Int} {m : Moment} (h : ofMillis? ms = some m) : Reached ms := by
  by_contra hne
  rw [ofMillis?_eq_none hne] at h
  cases h

/-- The moment shows universal time, so many milliseconds after the epoch. -/
structure Marks (m : Moment) (ms : Int) : Prop where
  offset : m.offset = some Offset.utc
  instant : m.instant = 1000 * ms

theorem exists_marks {ms : Int} (h : Reached ms) : ∃ m, Marks m ms := by
  obtain ⟨m, _, hinstant, hoffset⟩ := exists_ofMillis? h
  exact ⟨m, hoffset, hinstant⟩

theorem ofMillis?_of_marks {m : Moment} {ms : Int} (h : Marks m ms) : ofMillis? ms = some m := by
  obtain ⟨reading, offset, hcalendar⟩ := m
  obtain ⟨hoffset, hinstant⟩ := h
  cases hoffset
  have hreading : reading = ms * 1000 := by
    simp only [Moment.instant, Offset.utc, Option.map_some, Option.getD_some] at hinstant
    omega
  subst hreading
  exact dif_pos hcalendar

/-- The milliseconds are the whole ones of the instant, rounded down. -/
theorem toMillis_floor (m : Moment) :
    1000 * m.toMillis ≤ m.instant ∧ m.instant < 1000 * m.toMillis + 1000 := by
  unfold toMillis
  omega

theorem toMillis_mono {m n : Moment} (h : m.instant ≤ n.instant) : m.toMillis ≤ n.toMillis :=
  Int.ediv_le_ediv (by decide) h

end Moment

namespace DateScalar

open Moment (Reached)

theorem ofMillis_of_reached {ms : Int} (h : Reached ms) :
    ∃ m, ofMillis ms = .ok m ∧ m.instant = 1000 * ms ∧ m.toMillis = ms := by
  obtain ⟨m, hm, hinstant, _⟩ := Moment.exists_ofMillis? h
  refine ⟨m, ?_, hinstant, ?_⟩
  · rw [ofMillis, hm]
  · rw [Moment.toMillis, hinstant]
    omega

theorem ofMillis_of_not_reached {ms : Int} (h : ¬Reached ms) :
    ∃ text, ofMillis ms = .error (.accident .overflow text) := by
  rw [ofMillis, Moment.ofMillis?_eq_none h]
  exact ⟨_, rfl⟩

/-- A numeral is read as the number that it is written for. -/
theorem parse_numeral {ms : Int} (h : ms.natAbs < Nat.pow 10 Numeral.digitLimit) :
    parse (.text (String.ofList (Numeral.write ms))) = ofMillis ms := by
  have htrim : Text.trimChars (Numeral.write ms) = Numeral.write ms :=
    Text.trimChars_eq_self fun _ => Numeral.not_blank_of_mem_write
  rw [parse, String.toList_ofList, htrim, Numeral.readInteger_write h]

/-- The numbers that the calendar reaches have few digits. -/
theorem few_digits {ms : Int} (h : Reached ms) : ms.natAbs < Nat.pow 10 Numeral.digitLimit := by
  have hfew : ms.natAbs < Nat.pow 10 15 := by
    have hpow : Nat.pow 10 15 = 1000000000000000 := rfl
    unfold Reached at h
    omega
  have hmore : ∀ {k l : Nat}, k ≤ l → Nat.pow 10 k ≤ Nat.pow 10 l := Nat.pow_le_pow_right (by decide)
  exact Nat.lt_of_lt_of_le hfew (hmore (by decide))

theorem text?_of_reached {ms : Int} (h : Reached ms) :
    (Value.int ms).text? = .ok (String.ofList (Numeral.write ms)) := by
  rw [Value.text?_int, Value.intText?_of_lt (few_digits h)]

/-- **Milliseconds since the epoch stand for moments.** A number is the milliseconds of a moment if
the calendar reaches it, and too far off otherwise; read as it is or from its decimal form, it is
given back. A date, a clock and an offset, or none, which means universal time, are shown by one
moment, whose milliseconds are those of its instant rounded down. So they do not decrease, depend
on the instant alone, and lead back to a moment that is less than a millisecond before. -/
theorem millis_round_trip :
    (∀ ms : Int, -62135596800000 ≤ ms ∧ ms ≤ 253402300799999 →
      ∃ m, ofMillis ms = .ok m ∧ m.toMillis = ms ∧
        parse (.int ms) = .ok m ∧
        (∃ numeral, (Value.int ms).text? = .ok numeral ∧ parse (.text numeral) = .ok m) ∧
        serialize (.moment m) = .ok ms) ∧
    (∀ ms : Int, ¬(-62135596800000 ≤ ms ∧ ms ≤ 253402300799999) →
      ∃ text, ofMillis ms = .error (.accident .overflow text)) ∧
    (∀ (d : Calendar.Date) (c : Moment.Clock) (o : Option Offset), d.Valid → c.Valid →
      ∃ m, Moment.ofFields? d c o = some m ∧ m.date = d ∧ m.clock = c ∧ m.offset = o ∧
        m.instant = Moment.instantOf d c o ∧ serialize (.moment m) = .ok m.toMillis ∧
        1000 * m.toMillis ≤ Moment.instantOf d c o ∧
        Moment.instantOf d c o < 1000 * m.toMillis + 1000) ∧
    (∀ m n : Moment, m.instant ≤ n.instant → m.toMillis ≤ n.toMillis) ∧
    (∀ m n : Moment, m.instant = n.instant → m.toMillis = n.toMillis) ∧
    (∀ m : Moment, -62135596800000 ≤ m.toMillis ∧ m.toMillis ≤ 253402300799999 →
      ∃ n, ofMillis m.toMillis = .ok n ∧ n.instant ≤ m.instant ∧ m.instant < n.instant + 1000) := by
  refine ⟨?read, ?far, ?fields, fun _ _ => Moment.toMillis_mono, ?same, ?back⟩
  case read =>
    intro ms h
    obtain ⟨m, hm, _, hmillis⟩ := ofMillis_of_reached h
    have hdigits := few_digits h
    refine ⟨m, hm, hmillis, hm, ⟨String.ofList (Numeral.write ms), ?_, ?_⟩, congrArg Except.ok hmillis⟩
    · rw [Value.text?_int, Value.intText?_of_lt hdigits]
    · rw [parse_numeral hdigits, hm]
  case far => exact fun ms h => ofMillis_of_not_reached h
  case fields =>
    intro d c o hd hc
    obtain ⟨m, hm, hdate, hclock, hoffset, hinstant⟩ := Moment.exists_ofFields? hd hc o
    have hfloor := m.toMillis_floor
    rw [hinstant] at hfloor
    exact ⟨m, hm, hdate, hclock, hoffset, hinstant, rfl, hfloor⟩
  case same =>
    intro m n h
    rw [Moment.toMillis, Moment.toMillis, h]
  case back =>
    intro m h
    obtain ⟨n, hn, hinstant, _⟩ := ofMillis_of_reached h
    have hfloor := m.toMillis_floor
    rw [← hinstant] at hfloor
    exact ⟨n, hn, hfloor⟩

/-- A microsecond before the epoch lies in the millisecond before it. -/
example : Moment.toMillis ⟨-1, none, by decide⟩ = -1 := by decide

end DateScalar

end EntityApi
