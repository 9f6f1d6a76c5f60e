import EntityApi.Proofs.Filter.Compiled

/-! # Filters for a part of a text

A filter of the type `String` compiles to a pattern. The pattern is asked of the text
of a value (`Searched`), and it accepts just the texts that have the text of the filter
in them, whatever signs, line feeds or blanks there are in either
(`part_filter_decided`). -/
namespace EntityApi

namespace Condition

/-- The text that a value is searched in: its own, or its plain text if it is of another kind. A
moment without an offset is written as universal time, and null has no text. -/
inductive Searched : Value → String → Prop
  | text (s : String) : Searched (.text s) s
  | moment (m : Moment) : Searched (.moment m) (Value.momentString m.orUtc)
  | other {v : Value} {s : String} (hnull : v.isNull = false) (htext : v.isText = false)
      (hmoment : ∀ m, v ≠ .moment m) (hs : v.text? = .ok s) : Searched v s

variable {v : Value} {s : String}

theorem isNull_asInstant (v : Value) : (asInstant v).isNull = v.isNull := by
  cases v <;> rfl

theorem asInstant_of_ne_moment (h : ∀ m, v ≠ .moment m) : asInstant v = v := by
  cases v with
  | moment m => exact absurd rfl (h m)
  | _ => rfl

theorem searched_iff : Searched v s ↔ v.isNull = false ∧ (asInstant v).text? = .ok s := by
  constructor
  · rintro (_ | _ | ⟨hnull, _, hmoment, hs⟩)
    · exact ⟨rfl, rfl⟩
    · exact ⟨rfl, rfl⟩
    · exact ⟨hnull, (asInstant_of_ne_moment hmoment).symm ▸ hs⟩
  · rintro ⟨hnull, hs⟩
    cases v with
    | text t =>
      obtain rfl := Except.ok.inj hs
      exact .text t
    | moment m =>
      obtain rfl := Except.ok.inj hs
      exact .moment m
    | _ => exact .other hnull rfl (fun _ h => by cases h) hs

/-- An instant has a text, and every other value is left as it is. -/
theorem text?_asInstant_eq_error {e : Failure} :
    (asInstant v).text? = .error e ↔ v.text? = .error e := by
  cases v with
  | moment m => exact ⟨nofun, nofun⟩
  | _ => exact Iff.rfl

end Condition

namespace Filter

open Condition (Searched searched_iff)

variable {spec : List (Value × Value)} {part : String}

theorem compileOne_part (htype : Value.field spec "value_type" = .text "String")
    (hvalue : Value.field spec "value" = .text part) (hcolumn : (columnOf spec).truthy = true) :
    compileOne (.map spec) = .ok ⟨columnOf spec, .like, .text (containing part)⟩ := by
  rw [compileOne_of_column hvalue hcolumn, htype]
  rfl

/-- What a compiled filter for a part says of a record: nothing is found in null, and in any other
value the part is looked for in its text. -/
theorem holds_containing {column : Value} (hkey : column.isKey = true) (row : Row) :
    Condition.holds ⟨column, .like, .text (containing part)⟩ row =
      if (Value.lookup row column).isNull then .ok false
      else (Condition.asInstant (Value.lookup row column)).text?.map
        fun s => decide (part.toList <:+: s.toList) := by
  have haccepts : ∀ s : String, Like.accepts (Like.parse (containing part).toList) s.toList =
      decide (part.toList <:+: s.toList) := fun s => by
    rw [Bool.eq_iff_iff, Like.accepts_containing, decide_eq_true_iff]
  rw [Condition.holds_of_isKey hkey, Condition.isNull_asInstant, Condition.holdsOf_pattern]
  simp only [haccepts]

/-- **A filter for a part of a text is a search.** It compiles for every text and every column. The
compiled condition holds on a record if the column has a value there and the part occurs in the text
of that value, character by character and in one piece. It does not hold if there is no value or the
part does not occur. It is undecided only where the value has no text, for the same cause. -/
theorem part_filter_decided (htype : Value.field spec "value_type" = .text "String")
    (hvalue : Value.field spec "value" = .text part) (hcolumn : (columnOf spec).truthy = true)
    (hkey : (columnOf spec).isKey = true) :
    ∃ c, compileOne (.map spec) = .ok c ∧ ∀ row : Row,
      (c.holds row = .ok true ↔
        ∃ s, Searched (Value.lookup row (columnOf spec)) s ∧ part.toList <:+: s.toList) ∧
      (c.holds row = .ok false ↔ (Value.lookup row (columnOf spec)).isNull = true ∨
        ∃ s, Searched (Value.lookup row (columnOf spec)) s ∧ ¬part.toList <:+: s.toList) ∧
      (∀ e, c.holds row = .error e ↔ (Value.lookup row (columnOf spec)).text? = .error e) := by
  refine ⟨_, compileOne_part htype hvalue hcolumn, fun row => ?_⟩
  rw [holds_containing hkey row]
  generalize Value.lookup row (columnOf spec) = v
  have herror := fun e => Condition.text?_asInstant_eq_error (v := v) (e := e)
  simp only [searched_iff, ← herror]
  cases hnull : v.isNull with
  | true =>
    have hok : (Condition.asInstant v).text? = .ok "None" := by
      cases v <;> cases hnull
      rfl
    simp [hok]
  | false =>
    cases (Condition.asInstant v).text? with
    | ok s => simp [Except.map]
    | error e => simp [Except.map]

/-- The signs of patterns stand for themselves: the part `0%_!` followed by a line feed is found in
a text that holds it, and not where another character is in the place of a sign. -/
theorem part_filter_decided_of_signs :
    let spec : List (Value × Value) := [(.text "value_type", .text "String"),
      (.text "column_name", .text "note"), (.text "value", .text "0%_!\n")]
    ∃ c, compileOne (.map spec) = .ok c ∧
      c.holds [(.text "note", .text "50%_!\n\n")] = .ok true ∧
      c.holds [(.text "note", .text "500_!\n")] = .ok false ∧
      c.holds [(.text "note", .null)] = .ok false := by
  intro spec
  have htype : Value.field spec "value_type" = .text "String" := by
    simp [spec, Value.field, Value.lookup, Entries.get?]
  have hvalue : Value.field spec "value" = .text "0%_!\n" := by
    simp [spec, Value.field, Value.lookup, Entries.get?]
  have hcolumn : columnOf spec = .text "note" := by
    simp [spec, columnOf, Value.field, Value.lookup, Entries.get?, Value.truthy]
  obtain ⟨c, hc, hholds⟩ := part_filter_decided htype hvalue (by rw [hcolumn]; rfl)
    (by rw [hcolumn]; rfl)
  rw [hcolumn] at hholds
  have hfound : ∀ t, Searched (Value.lookup [(.text "note", .text t)] (.text "note")) t := by
    intro t
    simpa [Value.lookup, Entries.get?] using Searched.text t
  refine ⟨c, hc, (hholds _).1.mpr ⟨_, hfound _, ?_⟩, (hholds _).2.1.mpr (.inr ⟨_, hfound _, ?_⟩),
    (hholds _).2.1.mpr (.inl ?_)⟩
  · decide
  · decide
  · simp [Value.lookup, Entries.get?, Value.isNull]

end Filter

end EntityApi
