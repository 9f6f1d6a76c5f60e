import EntityApi.Proofs.Filter.Readings

/-! # Filters for a span of time

A filter of the type `Date` gives the two ends of a span in milliseconds (`Spans`). It
holds on a record just where the column has a moment there whose instant lies in the
span, the ends included, and it is decided on every record (`range_filter_decided`).
Moments that were read from milliseconds are found by these. -/
namespace EntityApi

namespace Condition

/-- What is no moment is between no moments. -/
theorem inRange_other {v : Value} (h : ∀ m, v ≠ .moment m) (low high : Moment) :
    inRange (.moment low) (.moment high) v = .ok false := by
  cases v with
  | moment m => exact absurd rfl (h m)
  | _ => rfl

/-- A span of time is decided on every record. -/
theorem holds_between {column : Value} (hkey : column.isKey = true) {low high : Moment}
    (hlow : low.offset.isSome = true) (hhigh : high.offset.isSome = true) (row : Row) :
    ∃ answer, holds ⟨column, .between, .list [.moment low, .moment high]⟩ row = .ok answer ∧
      (answer = true ↔ ∃ m, Value.lookup row column = .moment m ∧
        low.instant ≤ m.instant ∧ m.instant ≤ high.instant) := by
  rw [holds_of_isKey hkey]
  change ∃ answer, (if (asInstant (Value.lookup row column)).isNull then .ok false
    else inRange (.moment low) (.moment high) (asInstant (Value.lookup row column))) = _ ∧ _
  by_cases h : ∃ m, Value.lookup row column = .moment m
  · obtain ⟨m, hm⟩ := h
    rw [hm, inRange_moment hlow hhigh]
    refine ⟨_, rfl, ?_⟩
    rw [decide_eq_true_iff]
    exact ⟨fun h => ⟨m, rfl, h⟩, fun ⟨_, he, h⟩ => Value.moment.inj he ▸ h⟩
  · have hother : ∀ m, asInstant (Value.lookup row column) ≠ .moment m := by
      intro m hm
      cases hv : Value.lookup row column <;> rw [hv] at hm <;> cases hm
      exact h ⟨_, hv⟩
    rw [inRange_other hother, ite_self]
    exact ⟨false, rfl, nofun, fun ⟨m, hm, _⟩ => absurd ⟨m, hm⟩ h⟩

end Condition

namespace Filter

open Numeral (Plain)
open Moment (Reached)

/-- The text is two numerals with one comma between them. -/
def Spans (v : String) (lo hi : Int) : Prop :=
  ∃ a b, Halves v.toList a b ∧ Plain a lo ∧ Plain b hi

theorem signed_write_of_reached {ms : Int} (h : Reached ms) :
    Numeral.Signed (Numeral.write ms) ms :=
  Numeral.signed_write
    (Numeral.length_toDigits_le (k := Numeral.digitLimit) (by decide) (DateScalar.few_digits h))

/-- The decimal forms of two numbers that the calendar reaches span from one to the other. -/
theorem exists_spans {lo hi : Int} (hlo : Reached lo) (hhi : Reached hi) :
    ∃ a b, (Value.int lo).text? = .ok a ∧ (Value.int hi).text? = .ok b ∧
      Spans (a ++ "," ++ b) lo hi := by
  have hfrom := signed_write_of_reached hlo
  have hto := signed_write_of_reached hhi
  refine ⟨_, _, DateScalar.text?_of_reached hlo, DateScalar.text?_of_reached hhi,
    Numeral.write lo, Numeral.write hi, ⟨?_, hfrom.no_comma, hto.no_comma⟩,
    ⟨_, hfrom, .refl _⟩, ⟨_, hto, .refl _⟩⟩
  simp only [String.toList_append, String.toList_ofList, List.append_assoc]
  rfl

variable {spec : List (Value × Value)} {v : String} {lo hi : Int}

theorem compileOne_range (htype : Value.field spec "value_type" = .text "Date")
    (hvalue : Value.field spec "value" = .text v) (hcolumn : (columnOf spec).truthy = true)
    (hspan : Spans v lo hi) (hlo : Reached lo) (hhi : Reached hi) :
    ∃ low high, Moment.Marks low lo ∧ Moment.Marks high hi ∧
      compileOne (.map spec) =
        .ok ⟨columnOf spec, .between, .list [.moment low, .moment high]⟩ := by
  obtain ⟨a, b, hparts, ha, hb⟩ := hspan
  obtain ⟨low, hlow⟩ := Moment.exists_marks hlo
  obtain ⟨high, hhigh⟩ := Moment.exists_marks hhi
  refine ⟨low, high, hlow, hhigh, ?_⟩
  rw [compileOne_of_column hvalue hcolumn, htype]
  exact conditionFor_of_means (.range hparts ha hb ⟨hlo, hhi⟩ hlow hhigh) rfl

/-- **A filter for a span of time is decided on every record.** It compiles for all ends that the
calendar reaches, spelled as numerals with a comma between them. The compiled condition holds on a
record if and only if the column has a moment there whose instant is in the span, the ends included;
a moment without an offset shows universal time. On every other record it does not hold, so on none
at all if the span ends before it begins. A moment that was read from milliseconds is found if the
milliseconds are in the span. -/
theorem range_filter_decided (hlo : Reached lo) (hhi : Reached hi)
    (htype : Value.field spec "value_type" = .text "Date")
    (hvalue : Value.field spec "value" = .text v) (hspan : Spans v lo hi)
    (hcolumn : (columnOf spec).truthy = true) (hkey : (columnOf spec).isKey = true) :
    (∃ a b, (Value.int lo).text? = .ok a ∧ (Value.int hi).text? = .ok b ∧
      Spans (a ++ "," ++ b) lo hi) ∧
    ∃ c, compileOne (.map spec) = .ok c ∧
      (∀ row : Row, ∃ answer, c.holds row = .ok answer ∧
        (answer = true ↔ ∃ m, Value.lookup row (columnOf spec) = .moment m ∧
          1000 * lo ≤ Moment.instantOf m.date m.clock m.offset ∧
          Moment.instantOf m.date m.clock m.offset ≤ 1000 * hi)) ∧
      (hi < lo → ∀ row : Row, c.holds row = .ok false) ∧
      (∀ ms, Reached ms → ∃ m, DateScalar.parse (.int ms) = .ok m ∧
        (∃ numeral, (Value.int ms).text? = .ok numeral ∧ DateScalar.parse (.text numeral) = .ok m) ∧
        ∀ row : Row, Value.lookup row (columnOf spec) = .moment m →
          c.holds row = .ok (decide (lo ≤ ms ∧ ms ≤ hi))) := by
  refine ⟨exists_spans hlo hhi, ?_⟩
  obtain ⟨low, high, hlow, hhigh, hcompile⟩ := compileOne_range htype hvalue hcolumn hspan hlo hhi
  have hdecided := Condition.holds_between hkey (Option.isSome_of_eq_some hlow.offset)
    (Option.isSome_of_eq_some hhigh.offset)
  rw [hlow.instant, hhigh.instant] at hdecided
  refine ⟨_, hcompile, ?all, ?empty, ?millis⟩
  case all =>
    simpa only [Moment.instant_eq_instantOf] using hdecided
  case empty =>
    intro hempty row
    obtain ⟨answer, hanswer, hiff⟩ := hdecided row
    have hfalse : ¬answer = true := fun h => by
      obtain ⟨m, _, hfrom, hto⟩ := hiff.mp h
      omega
    rw [hanswer, Bool.eq_false_iff.mpr hfalse]
  case millis =>
    intro ms hms
    obtain ⟨m, hm, hinstant, _⟩ := DateScalar.ofMillis_of_reached hms
    refine ⟨m, hm, ⟨_, DateScalar.text?_of_reached hms, ?_⟩, fun row hrow => ?_⟩
    · rw [DateScalar.parse_numeral (DateScalar.few_digits hms), hm]
    · obtain ⟨answer, hanswer, hiff⟩ := hdecided row
      have hspanned : answer = true ↔ lo ≤ ms ∧ ms ≤ hi := by
        rw [hiff, hrow]
        constructor
        · rintro ⟨_, he, hfrom, hto⟩
          cases he
          omega
        · rintro ⟨hfrom, hto⟩
          exact ⟨m, rfl, by omega, by omega⟩
      rw [hanswer, Except.ok.injEq, Bool.eq_iff_iff, decide_eq_true_iff]
      exact hspanned

/-- The first second of 1970, ends included. A clock without an offset that shows its end is in it,
a clock an hour ahead that shows one o'clock less a microsecond is not, and neither is a day. -/
theorem range_filter_decided_of_second :
    let spec : List (Value × Value) := [(.text "value_type", .text "Date"),
      (.text "column_name", .text "at"), (.text "value", .text "0, 1000")]
    let ending : Moment := ⟨1000000, none, by decide⟩
    let ahead : Moment := ⟨3599999999, some ⟨3600000000, by decide⟩, by decide⟩
    let day : Day := ⟨Calendar.epochDay, by decide⟩
    ∃ c, compileOne (.map spec) = .ok c ∧ c.holds [(.text "at", .moment ending)] = .ok true ∧
      c.holds [(.text "at", .moment ahead)] = .ok false ∧
      c.holds [(.text "at", .day day)] = .ok false ∧ c.holds [] = .ok false := by
  intro spec ending ahead day
  have hspan : Spans "0, 1000" 0 1000 :=
    ⟨"0".toList, " 1000".toList, ⟨by decide, by decide, by decide⟩,
      readInteger_eq_ok.mp (by with_unfolding_all rfl),
      readInteger_eq_ok.mp (by with_unfolding_all rfl)⟩
  have htype : Value.field spec "value_type" = .text "Date" := by
    simp [spec, Value.field, Value.lookup, Entries.get?]
  have hvalue : Value.field spec "value" = .text "0, 1000" := by
    simp [spec, Value.field, Value.lookup, Entries.get?]
  have hcolumn : columnOf spec = .text "at" := by
    simp [spec, columnOf, Value.field, Value.lookup, Entries.get?, Value.truthy]
  obtain ⟨_, c, hc, hdecided, _⟩ := range_filter_decided (by decide) (by decide) htype hvalue hspan
    (by rw [hcolumn]; rfl) (by rw [hcolumn]; rfl)
  simp only [hcolumn, ← Moment.instant_eq_instantOf] at hdecided
  have hlookup : ∀ v, Value.lookup [(.text "at", v)] (.text "at") = v := fun v => by
    simp [Value.lookup, Entries.get?]
  have hout : ∀ row, (¬∃ m, Value.lookup row (.text "at") = .moment m ∧ 1000 * 0 ≤ m.instant ∧
      m.instant ≤ 1000 * 1000) → c.holds row = .ok false := by
    intro row h
    obtain ⟨answer, hanswer, hiff⟩ := hdecided row
    rw [hanswer, Bool.eq_false_iff.mpr (mt hiff.mp h)]
  refine ⟨c, hc, ?_, hout _ ?_, hout _ ?_, hout _ ?_⟩
  · obtain ⟨answer, hanswer, hiff⟩ := hdecided [(.text "at", .moment ending)]
    rw [hanswer, hiff.mpr ⟨ending, hlookup _, by decide, by decide⟩]
  · rw [hlookup]
    rintro ⟨m, hm, hfrom, _⟩
    cases hm
    exact absurd hfrom (by decide)
  · rw [hlookup]
    rintro ⟨m, ⟨⟩, _⟩
  · rintro ⟨m, ⟨⟩, _⟩

end Filter

end EntityApi
