import EntityApi.Proofs.Value.Equality
import EntityApi.Store.Memory

/-! # Keys of the rows of a memory store

The key column of the rows is what tells records apart (`keysOf`). Overlaying
a row with fields that do not name the key leaves that column alone
(`keysOf_overlay`), and a created row adds its own key at the end. Rows whose
keys are distinct whole numbers (`WellKeyed`) stay such when a key is added that
is not in use. -/
namespace EntityApi.MemoryStore

/-- The keys of the rows, in order. -/
def keysOf (primaryKey : String) (rows : List Row) : List Value := rows.map (keyOf primaryKey)

/-- Every row has a whole number as its key, and no two the same. A truth value counts as 0 or 1. -/
structure WellKeyed (primaryKey : String) (rows : List Row) : Prop where
  whole : ∀ k ∈ keysOf primaryKey rows, k.index?.isSome = true
  distinct : (keysOf primaryKey rows).Pairwise fun a b => (a == b) = false

variable {primaryKey : String} {rows : List Row}

@[simp] theorem keysOf_append (rows later : List Row) :
    keysOf primaryKey (rows ++ later) = keysOf primaryKey rows ++ keysOf primaryKey later :=
  List.map_append

theorem le_largestKey {k : Value} {n : Int} (hk : k ∈ keysOf primaryKey rows)
    (hn : k.index? = some n) : n ≤ largestKey primaryKey rows := by
  obtain ⟨row, hrow, rfl⟩ := List.mem_map.mp hk
  have hmem : n ∈ rows.filterMap fun row => (keyOf primaryKey row).index? :=
    List.mem_filterMap.mpr ⟨row, hrow, hn⟩
  unfold largestKey
  cases hmax : (rows.filterMap fun row => (keyOf primaryKey row).index?).max? with
  | none =>
    rw [List.max?_eq_none_iff] at hmax
    rw [hmax] at hmem
    cases hmem
  | some top => exact (List.max?_eq_some_iff.mp hmax).2 n hmem

/-! ## Writing next to the key column -/

theorem keyOf_put (row : Row) (v : Value) :
    keyOf primaryKey (Entries.put row (.text primaryKey) v) = v := by
  unfold keyOf Value.field Value.lookup
  rw [Entries.get?_put_self (Value.identified_text primaryKey)]
  rfl

/-- A record without a key gets it as its last column. -/
theorem put_key_eq_append {fields : Row} (h : Entries.get? fields (.text primaryKey) = none)
    (v : Value) : Entries.put fields (.text primaryKey) v = fields ++ [(.text primaryKey, v)] := by
  apply Entries.put_of_not_has
  rw [Entries.has, h]
  rfl

theorem keyOf_append_key {fields : Row} (h : Entries.get? fields (.text primaryKey) = none)
    (v : Value) : keyOf primaryKey (fields ++ [(.text primaryKey, v)]) = v := by
  rw [← put_key_eq_append h]
  exact keyOf_put fields v

theorem keyOf_merge {row fields : Row} (h : Entries.get? fields (.text primaryKey) = none) :
    keyOf primaryKey (Entries.merge row fields) = keyOf primaryKey row := by
  have hid := Value.identified_text primaryKey
  unfold keyOf Value.field Value.lookup
  rw [Entries.get?_merge_of_ne hid ((Entries.get?_eq_none_iff_ne hid).mp h)]

theorem keysOf_overlay {key : Value} {fields : Row}
    (h : Entries.get? fields (.text primaryKey) = none) :
    keysOf primaryKey (overlay primaryKey key fields rows).2 = keysOf primaryKey rows := by
  induction rows with
  | nil => rfl
  | cons row rows ih =>
    unfold overlay
    split
    · simp [keysOf, keyOf_merge h]
    · simpa [keysOf] using ih

/-! ## Distinct keys -/

theorem WellKeyed.tail {row : Row} (hw : WellKeyed primaryKey (row :: rows)) :
    WellKeyed primaryKey rows where
  whole k hk := hw.whole k (List.mem_cons_of_mem _ hk)
  distinct := (List.pairwise_cons.mp hw.distinct).2

theorem WellKeyed.overlay {key : Value} {fields : Row} (hw : WellKeyed primaryKey rows)
    (h : Entries.get? fields (.text primaryKey) = none) :
    WellKeyed primaryKey (MemoryStore.overlay primaryKey key fields rows).2 := by
  constructor
  · rw [keysOf_overlay h]; exact hw.whole
  · rw [keysOf_overlay h]; exact hw.distinct

theorem WellKeyed.append {row : Row} (hw : WellKeyed primaryKey rows)
    (hrow : (keyOf primaryKey row).index?.isSome = true)
    (hnew : ∀ k ∈ keysOf primaryKey rows, (k == keyOf primaryKey row) = false) :
    WellKeyed primaryKey (rows ++ [row]) := by
  constructor
  · intro k hk
    rcases List.mem_append.mp (keysOf_append rows [row] ▸ hk) with hk | hk
    · exact hw.whole k hk
    · rw [List.mem_singleton.mp hk]; exact hrow
  · rw [keysOf_append]
    refine List.pairwise_append.mpr ⟨hw.distinct, List.pairwise_singleton _ _, ?_⟩
    intro a ha b hb
    rw [List.mem_singleton.mp hb]
    exact hnew a ha

/-! ## What the operations of the store do to it -/

/-- A record that is created without a key gets the key that the counter shows. -/
theorem create_without_key {s : MemoryStore} {fields : Row} (ha : s.autoIncrement = true)
    (hk : (keyOf s.primaryKey fields).isNull = true) :
    s.create fields =
      (let row := Entries.put fields (.text s.primaryKey) (.int s.nextKey)
       (row, { s with rows := s.rows ++ [row], nextKey := s.nextKey + 1 })) := by
  simp [create, hk, ha]

/-- A record that is created with a key is stored as it is. -/
theorem create_with_key {s : MemoryStore} {fields : Row}
    (hk : (keyOf s.primaryKey fields).isNull = false) :
    s.create fields = (fields, { s with rows := s.rows ++ [fields] }) := by
  simp [create, hk]

end EntityApi.MemoryStore
