import EntityApi.Proofs.Time.EpochMillis
import EntityApi.Proofs.Value.Order

/-! # How far dates reach

A value that counts milliseconds is read as their moment, whatever form the count has
(`parse_of_counts`); all other values are read as moments or reported as malformed
(`proper_of_not_counts`). A count that the calendar does not reach is neither: it fails
as an overflow, and nothing else does (`parse_proper_iff_not_tooFar`). -/
namespace EntityApi.DateScalar

open Moment (Reached)

/-- A moment with an offset was read, or the value is reported as malformed. -/
inductive Proper : Result Moment → Prop
  | moment {m : Moment} (h : m.offset.isSome = true) : Proper (.ok m)
  | malformed {f : Failure} (h : f.isMalformed = true) : Proper (.error f)

/-- The value counts milliseconds: as a whole number, as its numeral with or without blanks around
it, or as a real number, of which the whole part counts. -/
inductive Counts (ms : Int) : Value → Prop
  | int : Counts ms (.int ms)
  | numeral {s : String} (h : Numeral.readInteger (Text.trimChars s.toList) = .ok ms) :
      Counts ms (.text s)
  | real {x : Binary64} (h : x.truncate? = some ms) : Counts ms (.real x)

/-- The value counts milliseconds beyond an end of the calendar, or without end. -/
inductive TooFar : Value → Prop
  | millis {v : Value} {ms : Int} (hv : Counts ms v) (h : ¬Reached ms) : TooFar v
  | infinite (negative : Bool) : TooFar (.real (.infinite negative))

variable {v : Value} {ms : Int}

/-- The form of a count makes no difference. -/
theorem parse_of_counts (h : Counts ms v) : parse v = ofMillis ms := by
  cases h with
  | int => rfl
  | numeral h => rw [parse, h]
  | real h => rw [parse, h]

theorem proper_ofMillis (h : Reached ms) : Proper (ofMillis ms) := by
  obtain ⟨m, hm, -, hoffset⟩ := Moment.exists_ofMillis? h
  rw [ofMillis, hm]
  refine .moment ?_
  rw [hoffset]
  rfl

theorem proper_ofIso (s : List Char) : Proper (ofIso s) := by
  unfold ofIso
  split
  · exact .moment (Moment.orUtc_offset_isSome _)
  · exact .malformed rfl

/-- What counts nothing is a moment, or ISO text of one, or malformed. -/
theorem proper_of_not_counts (h : ∀ ms, ¬Counts ms v) (hfinite : ¬TooFar v) : Proper (parse v) := by
  cases v with
  | moment m => exact .moment m.orUtc_offset_isSome
  | int n => exact absurd .int (h n)
  | real x =>
    cases x with
    | finite negative mantissa exponent => exact absurd (.real rfl) (h _)
    | infinite negative => exact absurd (.infinite negative) hfinite
    | nan => exact .malformed rfl
  | text s =>
    unfold parse
    dsimp only
    split
    · rename_i n hn
      exact absurd (.numeral hn) (h n)
    · exact proper_ofIso _
  | _ => exact .malformed rfl

/-- A count beyond the calendar overflows. -/
theorem parse_of_tooFar (h : TooFar v) : ∃ text, parse v = .error (.accident .overflow text) := by
  cases h with
  | millis hv h =>
    rw [parse_of_counts hv]
    exact ofMillis_of_not_reached h
  | infinite negative => exact ⟨_, rfl⟩

theorem proper_of_not_tooFar (h : ¬TooFar v) : Proper (parse v) := by
  by_cases hcounts : ∃ ms, Counts ms v
  · obtain ⟨ms, hms⟩ := hcounts
    rw [parse_of_counts hms]
    refine proper_ofMillis ?_
    by_contra hfar
    exact h (.millis hms hfar)
  · exact proper_of_not_counts (fun ms hms => hcounts ⟨ms, hms⟩) h

/-- An overflow is no report of a malformed value. -/
theorem not_proper_overflow (text : String) : ¬Proper (.error (.accident .overflow text)) := by
  intro h
  cases h with
  | malformed h => cases h

/-- **A value is read as a moment with an offset or reported as malformed, unless it counts
milliseconds beyond the calendar.** Such a count, and nothing else, fails as an overflow instead. -/
theorem parse_proper_iff_not_tooFar (v : Value) : (Proper (parse v) ↔ ¬TooFar v) ∧
    ((∃ text, parse v = .error (.accident .overflow text)) ↔ TooFar v) := by
  refine ⟨⟨fun hproper hfar => ?_, proper_of_not_tooFar⟩, fun ⟨text, htext⟩ => ?_, parse_of_tooFar⟩
  · obtain ⟨text, htext⟩ := parse_of_tooFar hfar
    exact not_proper_overflow text (htext ▸ hproper)
  · by_contra hnear
    exact not_proper_overflow text (htext ▸ proper_of_not_tooFar hnear)

/-- The millisecond after the last of the calendar, as a number and as a numeral, is neither read nor
reported as malformed. -/
theorem overflow_past_last :
    (parse (.int 253402300800000) = .error (.accident .overflow "date value out of range") ∧
      ¬Proper (parse (.int 253402300800000))) ∧
    parse (.text "253402300800000") = .error (.accident .overflow "date value out of range") ∧
      ¬Proper (parse (.text "253402300800000")) := by
  have hint : parse (.int 253402300800000) =
      .error (.accident .overflow "date value out of range") := by decide +kernel
  have htext : parse (.text "253402300800000") =
      .error (.accident .overflow "date value out of range") := by decide +kernel
  rw [hint, htext]
  exact ⟨⟨rfl, not_proper_overflow _⟩, rfl, not_proper_overflow _⟩

end EntityApi.DateScalar
