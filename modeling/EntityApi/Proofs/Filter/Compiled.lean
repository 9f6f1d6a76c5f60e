import EntityApi.Proofs.Like
import EntityApi.Proofs.Results
import EntityApi.Proofs.Value.Equality
import EntityApi.Proofs.Value.Order

/-! # Compiled conditions

Descriptors compile to conditions of a few shapes (`compiled_of_compileOne`), and on a
value of the kind that a condition asks about each of them comes to a plain comparison:
of numbers, of texts, of a text with its part, of instants. -/
namespace EntityApi

namespace Filter

/-- The value type of a descriptor. -/
def tagOf : Value → Value
  | .map spec => Value.field spec "value_type"
  | _ => .null

/-- The conditions that descriptors compile to, unless they ask for a number with a fraction. -/
inductive Compiled : Condition → Prop
  | number (column : Value) (n : Int) : Compiled ⟨column, .equal, .int n⟩
  | text (column : Value) (s : String) : Compiled ⟨column, .equal, .text s⟩
  | part (column : Value) (s : String) : Compiled ⟨column, .like, .text (containing s)⟩
  | range (column : Value) {a b : Int} {low high : Moment} : Moment.ofMillis? a = some low →
    Moment.ofMillis? b = some high →
    Compiled ⟨column, .between, .list [.moment low, .moment high]⟩

theorem compiled_of_dateCondition {column : Value} {value : String} {c : Condition}
    (h : dateCondition column value = .ok c) : Compiled c := by
  unfold dateCondition at h
  split at h
  · split at h
    · split at h
      · rename_i hlow hhigh
        cases h
        exact .range column hlow hhigh
      · obtain ⟨_, _, h⟩ := Result.bind_eq_ok.mp h
        cases h
    · obtain ⟨_, _, h⟩ := Result.bind_eq_ok.mp h
      cases h
  · obtain ⟨_, _, h⟩ := Result.bind_eq_ok.mp h
    cases h

theorem compiled_of_intCondition {column : Value} {value : String} {c : Condition}
    (h : intCondition column value = .ok c) : Compiled c := by
  unfold intCondition at h
  split at h
  · cases h
    exact .number column _
  · obtain ⟨_, _, h⟩ := Result.bind_eq_ok.mp h
    cases h

theorem compiled_of_conditionFor {tag column : Value} {value : String} {c : Condition}
    (h : conditionFor tag column value = .ok c) (htag : tag ≠ .text "Float") : Compiled c := by
  unfold conditionFor at h
  split at h
  · exact compiled_of_intCondition h
  · exact absurd rfl htag
  · cases h
    exact .part column value
  · exact compiled_of_dateCondition h
  · split at h
    · cases h
      exact .text column value
    · cases h

/-- A descriptor that compiles has a value, a column and a condition for its value type. -/
theorem compileOne_ok {entries : List (Value × Value)} {c : Condition}
    (h : compileOne (.map entries) = .ok c) :
    (Value.field entries "value").isNull = false ∧ (columnOf entries).truthy = true ∧
      ∃ value, (Value.field entries "value").text? = .ok value ∧
        conditionFor (Value.field entries "value_type") (columnOf entries) value = .ok c := by
  unfold compileOne at h
  cases hnull : (Value.field entries "value").isNull with
  | true =>
    simp only [hnull, ↓reduceIte] at h
    cases h
  | false =>
    simp only [hnull, Bool.false_eq_true, ↓reduceIte] at h
    obtain ⟨value, hvalue, h⟩ := Result.bind_eq_ok.mp h
    obtain ⟨condition, hcondition, h⟩ := Result.bind_eq_ok.mp h
    cases htruthy : (columnOf entries).truthy with
    | true =>
      simp only [htruthy, ↓reduceIte] at h
      cases h
      exact ⟨rfl, rfl, value, hvalue, hcondition⟩
    | false =>
      simp only [htruthy, Bool.false_eq_true, ↓reduceIte] at h
      cases h

/-- A descriptor with a text as its value is compiled for its value type, and only then asked for
its column. -/
theorem compileOne_of_text {entries : List (Value × Value)} {value : String}
    (h : Value.field entries "value" = .text value) :
    compileOne (.map entries) =
      conditionFor (Value.field entries "value_type") (columnOf entries) value >>= fun c =>
        if (columnOf entries).truthy then .ok c else malformed .noColumn := by
  unfold compileOne
  simp only [h]
  rfl

theorem compileOne_of_column {entries : List (Value × Value)} {value : String}
    (h : Value.field entries "value" = .text value) (hcolumn : (columnOf entries).truthy = true) :
    compileOne (.map entries) =
      conditionFor (Value.field entries "value_type") (columnOf entries) value := by
  rw [compileOne_of_text h]
  simp only [hcolumn, ↓reduceIte]
  exact bind_pure _

theorem compiled_of_compileOne {spec : Value} {c : Condition} (h : compileOne spec = .ok c)
    (htag : tagOf spec ≠ .text "Float") : Compiled c := by
  cases spec with
  | map entries =>
    obtain ⟨_, _, value, _, hcondition⟩ := compileOne_ok h
    exact compiled_of_conditionFor hcondition htag
  | _ => cases h

/-- The descriptors of a series; there are none if it counts as absent. -/
def descriptors (options : Value) : List Value :=
  if options.truthy then options.items?.getD [] else []

theorem compiled_of_compile {options : Value} {conditions : List Condition}
    (h : compile options = .ok conditions)
    (htags : ∀ spec ∈ descriptors options, tagOf spec ≠ .text "Float") :
    ∀ c ∈ conditions, Compiled c := by
  unfold compile at h
  unfold descriptors at htags
  cases htruthy : options.truthy with
  | false =>
    simp only [htruthy, Bool.not_false, ↓reduceIte] at h
    cases h
    exact nofun
  | true =>
    simp only [htruthy, Bool.not_true, Bool.false_eq_true, ↓reduceIte] at h htags
    split at h
    · rename_i items hitems
      intro c hc
      obtain ⟨spec, hspec, hone⟩ := Result.exists_of_mem_right (Result.mapM_eq_ok.mp h) hc
      exact compiled_of_compileOne hone (htags spec (by simpa [hitems] using hspec))
    · cases h

end Filter

namespace Condition

/-- The value is of the kind that the condition asks about. -/
def Suits (c : Condition) (v : Value) : Prop :=
  match c.comparison, c.operand with
  | .equal, .int _ => ∃ n, v.index? = some n
  | .between, _ => ∃ m, v = .moment m
  | _, _ => ∃ s, v = .text s

/-! ## What holds on a value of the right kind -/

variable {row : Row} {column : String}

/-- A column that can name one is asked for its value, and a value that is there is compared. -/
theorem holds_of_isKey {c : Condition} (h : c.column.isKey = true) :
    c.holds row =
      if (asInstant (Value.lookup row c.column)).isNull then .ok false
      else c.holdsOf (asInstant (Value.lookup row c.column)) := by
  unfold holds columnOf
  rw [if_pos h]
  rfl

theorem holds_eq (comparison : Comparison) (operand : Value) :
    holds ⟨.text column, comparison, operand⟩ row =
      if (asInstant (Value.field row column)).isNull then .ok false
      else holdsOf ⟨.text column, comparison, operand⟩ (asInstant (Value.field row column)) :=
  holds_of_isKey rfl

theorem holds_of_null {comparison : Comparison} {operand : Value}
    (h : Value.field row column = .null) :
    holds ⟨.text column, comparison, operand⟩ row = .ok false := by
  rw [holds_eq, h]
  rfl

theorem holds_number {n a : Int} (h : (Value.field row column).index? = some a) :
    holds ⟨.text column, .equal, .int n⟩ row = .ok (a == n) := by
  have hequal := Value.beq_of_index?_index? h (w := .int n) rfl
  rw [holds_eq]
  cases hv : Value.field row column <;> simp only [hv, Value.index?, reduceCtorEq] at h <;>
    rw [hv] at hequal <;> exact congrArg Except.ok hequal

theorem holds_text {wanted s : String} (h : Value.field row column = .text s) :
    holds ⟨.text column, .equal, .text wanted⟩ row = .ok (s == wanted) := by
  rw [holds_eq, h]
  exact congrArg Except.ok (Value.beq_text s wanted)

/-- The signs of a text are its characters. -/
theorem signsOf_text (pattern : String) :
    signsOf (.text pattern) = .ok (pattern.toList.map ([·])) := by
  unfold signsOf
  simp only [Value.items?]
  refine Result.mapM_eq_ok.mpr ?_
  induction pattern.toList with
  | nil => exact .nil
  | cons c cs ih => exact .cons (by simp) ih

/-- A pattern is asked of the text of a value. -/
theorem holdsOf_pattern (column : Value) (pattern : String) (v : Value) :
    holdsOf ⟨column, .like, .text pattern⟩ v =
      v.text?.map fun s => Like.accepts (Like.parse pattern.toList) s.toList := by
  change (signsOf (.text pattern) >>= fun signs => _) = _
  rw [signsOf_text, Result.ok_bind]
  cases v.text? <;> rfl

theorem holds_part {part s : String} (h : Value.field row column = .text s) :
    holds ⟨.text column, .like, .text (Filter.containing part)⟩ row =
      .ok (decide (part.toList <:+: s.toList)) := by
  rw [holds_eq, h]
  change holdsOf ⟨.text column, .like, .text (Filter.containing part)⟩ (.text s) = _
  rw [holdsOf_pattern, Value.text?_text]
  refine congrArg Except.ok ?_
  rw [Bool.eq_iff_iff, Like.accepts_containing, decide_eq_true_iff]

/-- A moment is between two moments of known offset if its instant is between theirs. -/
theorem inRange_moment {low high : Moment} (hlow : low.offset.isSome = true)
    (hhigh : high.offset.isSome = true) (m : Moment) :
    inRange (.moment low) (.moment high) (asInstant (.moment m)) =
      .ok (decide (low.instant ≤ m.instant ∧ m.instant ≤ high.instant)) := by
  have hbefore := Value.before_moment hlow m.orUtc_offset_isSome
  have hafter := Value.before_moment m.orUtc_offset_isSome hhigh
  change inRange (.moment low) (.moment high) (.moment m.orUtc) = _
  unfold inRange
  rw [hbefore, Result.ok_bind, hafter, Moment.instant_orUtc]
  by_cases hl : low.instant ≤ m.instant
  · simp [hl]
  · simp only [hl, decide_false, false_and]
    rfl

theorem holds_range {a b : Int} {low high m : Moment} (hlow : Moment.ofMillis? a = some low)
    (hhigh : Moment.ofMillis? b = some high) (h : Value.field row column = .moment m) :
    holds ⟨.text column, .between, .list [.moment low, .moment high]⟩ row =
      .ok (decide (low.instant ≤ m.instant ∧ m.instant ≤ high.instant)) := by
  rw [holds_eq, h]
  exact inRange_moment (Moment.offset_of_ofMillis? hlow) (Moment.offset_of_ofMillis? hhigh) m

end Condition

end EntityApi
