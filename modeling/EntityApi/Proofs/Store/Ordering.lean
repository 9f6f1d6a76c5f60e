import EntityApi.Proofs.Results
import EntityApi.Proofs.Value.Order
import EntityApi.Store.Memory
import Mathlib.Data.String.Basic
import Mathlib.Order.Defs.LinearOrder

/-! # The order of a listing

A store sorts the rows of a listing by what one column holds. If any two values there
can be compared, the rows come out as a rearrangement of the ones that went in
(`sortBy_eq_ok`), and if the comparisons put the values in an order, the rows come out in
that order, with equal ones left as they were (`arranges_sortRows`). -/
namespace EntityApi

/-! ## Merge sort by a relation that orders a list -/

section

variable {α : Type} {le : α → α → Bool} {l : List α}

/-- Sorting a list is sorting its members, as members. -/
theorem map_mergeSort_attach (le : α → α → Bool) (l : List α) :
    (l.attach.mergeSort fun a b => le a.val b.val).map Subtype.val = l.mergeSort le := by
  have hmap := List.map_mergeSort (l := l.attach) (f := Subtype.val)
    (r := fun a b => le a.val b.val) (s := le) fun _ _ _ _ => rfl
  rwa [List.attach_map_subtype_val] at hmap

variable (trans : ∀ a ∈ l, ∀ b ∈ l, ∀ c ∈ l, le a b = true → le b c = true → le a c = true)
  (total : ∀ a ∈ l, ∀ b ∈ l, (le a b || le b a) = true)

include trans total

theorem pairwise_mergeSort_of_mem : (l.mergeSort le).Pairwise fun a b => le a b = true := by
  rw [← map_mergeSort_attach, List.pairwise_map]
  exact List.pairwise_mergeSort
    (fun a b c => trans a.val a.property b.val b.property c.val c.property)
    (fun a b => total a.val a.property b.val b.property) _

theorem sublist_mergeSort_of_mem {c : List α} (hc : c.Pairwise fun a b => le a b = true)
    (h : c.Sublist l) : c.Sublist (l.mergeSort le) := by
  rw [← List.attach_map_subtype_val l, List.sublist_map_iff] at h
  obtain ⟨members, hmembers, rfl⟩ := h
  have hsorted : members.Sublist (l.attach.mergeSort fun a b => le a.val b.val) :=
    List.sublist_mergeSort
      (fun a b c => trans a.val a.property b.val b.property c.val c.property)
      (fun a b => total a.val a.property b.val b.property) (List.pairwise_map.mp hc) hmembers
  rw [← map_mergeSort_attach]
  exact hsorted.map Subtype.val

theorem pair_sublist_mergeSort_of_mem {a b : α} (hab : le a b = true) (h : [a, b].Sublist l) :
    [a, b].Sublist (l.mergeSort le) :=
  sublist_mergeSort_of_mem trans total (List.pairwise_pair.mpr hab) h

end

/-! ## Comparing values -/

/-- Any two of the values can be compared, as long as neither is null. -/
def Comparable (values : List Value) : Prop := ∀ a ∈ values, ∀ b ∈ values,
  a.isNull = false → b.isNull = false → ∃ answer, Value.before true a b = .ok answer

/-- The comparisons put the values in an order: none is before another that is before it, and one that
is before another is so next to any third. -/
structure Ranked (values : List Value) : Prop where
  asymm : ∀ a ∈ values, ∀ b ∈ values, Value.before true a b = .ok true →
    Value.before true b a ≠ .ok true
  split : ∀ a ∈ values, ∀ b ∈ values, ∀ c ∈ values, b.isNull = false →
    Value.before true a c = .ok true → Value.before true a b = .ok true ∨
      Value.before true b c = .ok true

/-- Values that are compared as what they are worth can be compared and are in order. -/
theorem comparable_of_worth {α : Type} [LinearOrder α] {values : List Value} (worth : Value → α)
    (h : ∀ a ∈ values, ∀ b ∈ values, a.isNull = false → b.isNull = false →
      Value.before true a b = .ok (decide (worth a < worth b))) :
    Comparable values ∧ Ranked values := by
  have hworth : ∀ a ∈ values, ∀ b ∈ values, Value.before true a b = .ok true →
      a.isNull = false ∧ b.isNull = false ∧ worth a < worth b := by
    intro a ha b hb hab
    have hnull := Value.not_null_of_before hab
    rw [h a ha b hb hnull.1 hnull.2] at hab
    exact ⟨hnull.1, hnull.2, of_decide_eq_true (Except.ok.inj hab)⟩
  refine ⟨fun a ha b hb hna hnb => ⟨_, h a ha b hb hna hnb⟩, ?_, ?_⟩
  · intro a ha b hb hab hba
    exact absurd (hworth a ha b hb hab).2.2 (lt_asymm (hworth b hb a ha hba).2.2)
  · intro a ha b hb c hc hnb hac
    obtain ⟨hna, hnc, hlt⟩ := hworth a ha c hc hac
    rw [h a ha b hb hna hnb, h b hb c hc hnb hnc]
    rcases lt_or_ge (worth a) (worth b) with hab | hba
    · exact .inl (congrArg Except.ok (decide_eq_true hab))
    · exact .inr (congrArg Except.ok (decide_eq_true (lt_of_le_of_lt hba hlt)))

theorem comparable_numbers {values : List Value}
    (h : ∀ v ∈ values, v.isNull = true ∨ ∃ n, v.index? = some n) :
    Comparable values ∧ Ranked values := by
  refine comparable_of_worth (fun v => v.index?.getD 0) fun a ha b hb hna hnb => ?_
  obtain ⟨x, hx⟩ := (h a ha).resolve_left (by simp [hna])
  obtain ⟨y, hy⟩ := (h b hb).resolve_left (by simp [hnb])
  rw [Value.before_of_index? hx hy, hx, hy]
  rfl

theorem comparable_texts {values : List Value}
    (h : ∀ v ∈ values, v.isNull = true ∨ ∃ s, v = .text s) :
    Comparable values ∧ Ranked values := by
  refine comparable_of_worth (fun v => v.text?.toOption.getD "") fun a ha b hb hna hnb => ?_
  obtain ⟨x, rfl⟩ := (h a ha).resolve_left (by simp [hna])
  obtain ⟨y, rfl⟩ := (h b hb).resolve_left (by simp [hnb])
  simp [Value.before, Except.toOption]

namespace MemoryStore

/-- Under an ordering clause, a row with the one value may come before a row with the other. Null comes
after all else if the clause is ascending, and first if it is descending. -/
def MayPrecede (direction : Sql.Direction) (a b : Value) : Prop :=
  match direction with
  | .ascending => b.isNull = true ∨ (a.isNull = false ∧ Value.before true b a ≠ .ok true)
  | .descending => a.isNull = true ∨ (b.isNull = false ∧ Value.before true a b ≠ .ok true)

/-- A rearrangement of rows by a clause. It has the same rows; if the values of the column are in an
order, so are the rows, and those that stood in order before still do. -/
structure Arranges (column : Value) (direction : Sql.Direction) (rows sorted : List Row) :
    Prop where
  perm : sorted.Perm rows
  ordered : Ranked (rows.map (Value.lookup · column)) → sorted.Pairwise fun a b =>
    MayPrecede direction (Value.lookup a column) (Value.lookup b column)
  stable : Ranked (rows.map (Value.lookup · column)) → ∀ a b, [a, b].Sublist rows →
    MayPrecede direction (Value.lookup a column) (Value.lookup b column) → [a, b].Sublist sorted

theorem keyBefore_eq_true {a b : Value} : keyBefore a b = true ↔
    a.isNull = false ∧ (b.isNull = true ∨ Value.before true a b = .ok true) := by
  unfold keyBefore
  cases a.isNull with
  | true => simp
  | false =>
    cases b.isNull with
    | true => simp
    | false =>
      cases Value.before true a b with
      | error => simp [Except.toOption]
      | ok answer => cases answer <;> simp [Except.toOption]

/-- Whether a row may stand before another, by the values of the column. -/
def rowInOrder (column : Value) (direction : Sql.Direction) (a b : Row) : Bool :=
  inOrder direction (Value.lookup a column, a) (Value.lookup b column, b)

theorem rowInOrder_iff {column : Value} {direction : Sql.Direction} {a b : Row} :
    rowInOrder column direction a b = true ↔
      MayPrecede direction (Value.lookup a column) (Value.lookup b column) := by
  have hmay : ∀ x y : Value, keyBefore y x = false ↔
      y.isNull = true ∨ (x.isNull = false ∧ Value.before true y x ≠ .ok true) := by
    intro x y
    rw [← Bool.not_eq_true, keyBefore_eq_true]
    cases x.isNull <;> cases y.isNull <;> simp
  unfold rowInOrder inOrder MayPrecede
  cases direction with
  | ascending => simp only [Bool.not_eq_true', hmay]
  | descending => simp only [Bool.not_eq_true', hmay]

/-! ## The laws of the order, from those of the values -/

section

variable {values : List Value} (ranked : Ranked values) {direction : Sql.Direction}

include ranked

theorem ascending_trans {a b c : Value} (ha : a ∈ values) (hb : b ∈ values) (hc : c ∈ values)
    (hab : MayPrecede .ascending a b) (hbc : MayPrecede .ascending b c) :
    MayPrecede .ascending a c := by
  rcases hbc with hnc | ⟨hnb, hcb⟩
  · exact .inl hnc
  · rcases hab with hnb' | ⟨hna, hba⟩
    · rw [hnb] at hnb'
      cases hnb'
    · refine .inr ⟨hna, fun hca => ?_⟩
      rcases ranked.split c hc b hb a ha hnb hca with h | h
      · exact hcb h
      · exact hba h

theorem ascending_total {a b : Value} (ha : a ∈ values) (hb : b ∈ values) :
    MayPrecede .ascending a b ∨ MayPrecede .ascending b a := by
  cases hna : a.isNull with
  | true => exact .inr (.inl hna)
  | false =>
    cases hnb : b.isNull with
    | true => exact .inl (.inl hnb)
    | false =>
      by_cases hba : Value.before true b a = .ok true
      · exact .inr (.inr ⟨hnb, ranked.asymm b hb a ha hba⟩)
      · exact .inl (.inr ⟨hna, hba⟩)

-- descending is ascending the other way round
theorem mayPrecede_trans {a b c : Value} (ha : a ∈ values) (hb : b ∈ values) (hc : c ∈ values)
    (hab : MayPrecede direction a b) (hbc : MayPrecede direction b c) :
    MayPrecede direction a c := by
  cases direction with
  | ascending => exact ascending_trans ranked ha hb hc hab hbc
  | descending => exact ascending_trans ranked hc hb ha hbc hab

theorem mayPrecede_total {a b : Value} (ha : a ∈ values) (hb : b ∈ values) :
    MayPrecede direction a b ∨ MayPrecede direction b a := by
  cases direction with
  | ascending => exact ascending_total ranked ha hb
  | descending => exact ascending_total ranked hb ha

end

/-! ## Sorting -/

/-- The rows, sorted by a column. -/
def sortRows (column : Value) (direction : Sql.Direction) (rows : List Row) : List Row :=
  rows.mergeSort (rowInOrder column direction)

theorem arranges_sortRows (column : Value) (direction : Sql.Direction) (rows : List Row) :
    Arranges column direction rows (sortRows column direction rows) := by
  have hmem : ∀ row ∈ rows, Value.lookup row column ∈ rows.map (Value.lookup · column) :=
    fun row hrow => List.mem_map_of_mem hrow
  have htrans : Ranked (rows.map (Value.lookup · column)) → ∀ a ∈ rows, ∀ b ∈ rows, ∀ c ∈ rows,
      rowInOrder column direction a b = true → rowInOrder column direction b c = true →
        rowInOrder column direction a c = true := by
    intro ranked a ha b hb c hc hab hbc
    rw [rowInOrder_iff] at *
    exact mayPrecede_trans ranked (hmem a ha) (hmem b hb) (hmem c hc) hab hbc
  have htotal : Ranked (rows.map (Value.lookup · column)) → ∀ a ∈ rows, ∀ b ∈ rows,
      (rowInOrder column direction a b || rowInOrder column direction b a) = true := by
    intro ranked a ha b hb
    rw [Bool.or_eq_true, rowInOrder_iff, rowInOrder_iff]
    exact mayPrecede_total ranked (hmem a ha) (hmem b hb)
  refine ⟨List.mergeSort_perm _ _, fun ranked => ?_, fun ranked a b hsublist hab => ?_⟩
  · exact (pairwise_mergeSort_of_mem (htrans ranked) (htotal ranked)).imp rowInOrder_iff.mp
  · exact pair_sublist_mergeSort_of_mem (htrans ranked) (htotal ranked) (rowInOrder_iff.mpr hab)
      hsublist

theorem comparable_eq_ok {a b : Value} (h : a.isNull = false → b.isNull = false →
    ∃ answer, Value.before true a b = .ok answer) : comparable a b = .ok () := by
  unfold comparable
  split
  · rfl
  · rename_i hcond
    simp only [Bool.or_eq_true, not_or, Bool.not_eq_true] at hcond
    obtain ⟨answer, hanswer⟩ := h hcond.1.1 hcond.1.2
    rw [hanswer]
    rfl

theorem allComparable_eq_ok {values : List Value} (h : Comparable values) :
    allComparable values = .ok () := by
  induction values with
  | nil => rfl
  | cons a values ih =>
    have hone : values.forM (comparable a) = .ok () := Result.forM_eq_ok.mpr fun b hb =>
      comparable_eq_ok (h a List.mem_cons_self b (List.mem_cons_of_mem _ hb))
    unfold allComparable
    rw [hone, Result.ok_bind]
    exact ih fun b hb c hc => h b (List.mem_cons_of_mem _ hb) c (List.mem_cons_of_mem _ hc)

theorem sortBy_eq_ok {column : Value} {direction : Sql.Direction} {rows : List Row}
    (hkey : column.isKey = true) (h : Comparable (rows.map (Value.lookup · column))) :
    sortBy column direction rows = .ok (sortRows column direction rows) := by
  have hkeyed : (rows.mapM fun row => do return (← Condition.columnOf row column, row)) =
      (.ok (rows.map fun row => (Value.lookup row column, row)) : Result _) := by
    refine Result.mapM_eq_ok.mpr (List.forall₂_map_right_iff.mpr (List.forall₂_same.mpr ?_))
    intro row _
    simp only [Condition.columnOf, hkey, ↓reduceIte, Result.ok_bind]
    rfl
  have hkeys : (rows.map fun row => (Value.lookup row column, row)).map Prod.fst =
      rows.map (Value.lookup · column) := by
    rw [List.map_map]
    rfl
  have hsorted : ((rows.map fun row => (Value.lookup row column, row)).mergeSort
      (inOrder direction)).map Prod.snd = sortRows column direction rows := by
    rw [List.map_mergeSort (s := rowInOrder column direction), List.map_map]
    · exact congrArg (List.mergeSort · _) (List.map_id rows)
    · intro a ha b hb
      obtain ⟨_, _, rfl⟩ := List.mem_map.mp ha
      obtain ⟨_, _, rfl⟩ := List.mem_map.mp hb
      rfl
  unfold sortBy
  rw [hkeyed, Result.ok_bind, hkeys, allComparable_eq_ok h, Result.ok_bind, hsorted]
  rfl

end MemoryStore

end EntityApi
