import EntityApi.Proofs.Tables

/-! # The algebra of merging

Storing under a key changes its entry where it stands, so that what is stored under
another key later may as well be stored before, if the first key is there already
(`put_put_of_ne`). Hence it makes no difference whether something is stored into a
table before or after that table is merged into another one (`merge_put`): merging is
associative (`merge_assoc`), and a table merged twice is merged once
(`merge_merge_self`). Look-ups in what was merged find the last entry of a key
(`get?_merge`). The keys are compared by any equivalence. -/
namespace EntityApi.Entries

variable {κ α : Type} [BEq κ] [EquivBEq κ] {es base later : List (κ × α)} {k k' key : κ} {v w : α}

/-! ## Storing twice -/

/-- The later of two values under one key is stored, where the first of them was. -/
theorem put_put_of_eq (es : List (κ × α)) (h : (k == k') = true) (v w : α) :
    put (put es k v) k' w = put es k w := by
  induction es with
  | nil => simp [put, h]
  | cons e es ih =>
    obtain ⟨k₀, a⟩ := e
    have hsame : (k₀ == k) = (k₀ == k') := BEq.congr_right h
    cases hk : k₀ == k with
    | true => simp [put, hk, hsame ▸ hk]
    | false => simp [put, hk, hsame ▸ hk, ih]

/-- A key that is there keeps its place, so that another one may be stored first or last. -/
theorem put_put_of_ne (h : has es k = true) (hne : (k' == k) = false) (v w : α) :
    put (put es k' w) k v = put (put es k v) k' w := by
  induction es with
  | nil => cases h
  | cons e es ih =>
    obtain ⟨k₀, a⟩ := e
    cases hk : k₀ == k with
    | true =>
      have hk' : (k₀ == k') = false := by
        rw [BEq.congr_left hk, BEq.comm]
        exact hne
      simp [put, hk, hk']
    | false =>
      have hrest : has es k = true := by simpa [has, get?, hk] using h
      cases hk' : k₀ == k' with
      | true => simp [put, hk, hk']
      | false => simp [put, hk, hk', ih hrest]

omit [EquivBEq κ] in
/-- What is stored already need not be stored again. -/
theorem put_eq_self (h : get? es k = some v) : put es k v = es := by
  induction es with
  | nil => cases h
  | cons e es ih =>
    obtain ⟨k₀, a⟩ := e
    rw [get?] at h
    rw [put]
    split at h
    · rename_i hk
      rw [if_pos hk, Option.some.inj h]
    · rename_i hk
      rw [if_neg hk, ih h]

omit [EquivBEq κ] in
/-- Entries that are there already change nothing when they are merged. -/
theorem merge_eq_self (h : ∀ e ∈ later, get? base e.1 = some e.2) : merge base later = base := by
  induction later with
  | nil => rfl
  | cons e later ih =>
    obtain ⟨he, hlater⟩ := List.forall_mem_cons.mp h
    rw [merge_cons, put_eq_self he]
    exact ih hlater

/-! ## Tables without repeated keys -/

theorem get?_congr (h : (k == k') = true) : get? es k = get? es k' := by
  induction es with
  | nil => rfl
  | cons e es ih => rw [get?, get?, BEq.congr_right h, ih]

theorem has_put (es : List (κ × α)) (k : κ) (v : α) (key : κ) :
    has (put es k v) key = (k == key || has es key) := by
  unfold has
  rw [get?_put]
  split
  · rename_i h
    rw [h]
    rfl
  · rename_i h
    rw [Bool.eq_false_iff.mpr h, Bool.false_or]

/-- In front of a table goes a key that the table does not have. -/
theorem distinct_cons {e : κ × α} : Distinct (e :: es) ↔ has es e.1 = false ∧ Distinct es := by
  unfold Distinct
  rw [List.pairwise_cons, has_eq_false_iff]
  simp only [BEq.comm (a := e.1)]

theorem distinct_put (h : Distinct es) (k : κ) (v : α) : Distinct (put es k v) := by
  induction es with
  | nil => exact List.pairwise_singleton _ _
  | cons e es ih =>
    obtain ⟨k₀, a⟩ := e
    obtain ⟨hnew, hrest⟩ := distinct_cons.mp h
    rw [put]
    split
    · exact distinct_cons.mpr ⟨hnew, hrest⟩
    · rename_i hk
      refine distinct_cons.mpr ⟨?_, ih hrest⟩
      rw [has_put, hnew, BEq.comm, Bool.eq_false_iff.mpr hk]
      rfl

theorem distinct_merge (h : Distinct base) (later : List (κ × α)) : Distinct (merge base later) := by
  induction later generalizing base with
  | nil => exact h
  | cons e later ih => exact ih (distinct_put h e.1 e.2)

/-- Each entry of a table is found under its key. -/
theorem get?_of_mem (h : Distinct es) {e : κ × α} (he : e ∈ es) : get? es e.1 = some e.2 := by
  induction es with
  | nil => cases he
  | cons e' es ih =>
    obtain ⟨k₀, a⟩ := e'
    obtain ⟨hnew, hrest⟩ := distinct_cons.mp h
    rw [get?]
    rcases List.mem_cons.mp he with rfl | he
    · rw [if_pos BEq.rfl]
    · have hne : (e.1 == k₀) = false := has_eq_false_iff.mp hnew e he
      rw [if_neg (by rw [BEq.comm, hne]; exact Bool.false_ne_true), ih hrest he]

/-! ## Merging -/

/-- Look-ups find the last entry that was merged under the key, and else what was there before. -/
theorem get?_merge (base later : List (κ × α)) (key : κ) :
    get? (merge base later) key = (get? later.reverse key).or (get? base key) := by
  induction later generalizing base with
  | nil => rfl
  | cons e later ih =>
    rw [merge_cons, ih, get?_put, List.reverse_cons, get?_append, Option.or_assoc, get?]
    cases e.1 == key <;> rfl

/-- What is stored under a key that is there may as well be stored before others are merged. -/
theorem put_merge_of_has (hbase : has base k = true) (hlater : has later k = false) (v : α) :
    put (merge base later) k v = merge (put base k v) later := by
  induction later generalizing base with
  | nil => rfl
  | cons e later ih =>
    have hnew := has_eq_false_iff.mp hlater
    have hrest := has_eq_false_iff.mpr fun e' he' => hnew e' (List.mem_cons_of_mem _ he')
    have hthere : has (put base e.1 e.2) k = true := by rw [has_put, hbase, Bool.or_true]
    rw [merge_cons, ih hthere hrest, put_put_of_ne hbase (hnew e List.mem_cons_self)]
    rfl

/-- It makes no difference whether something is stored before or after the merge. -/
theorem merge_put (h : Distinct later) (base : List (κ × α)) (k : κ) (v : α) :
    merge base (put later k v) = put (merge base later) k v := by
  induction later generalizing base with
  | nil => rfl
  | cons e later ih =>
    obtain ⟨k₀, a⟩ := e
    obtain ⟨hnew, hrest⟩ := distinct_cons.mp h
    rw [put]
    split
    · -- the entry gets its last value when it is merged, and no later one has its key
      rename_i hk
      have hthere : has (put base k₀ a) k = true := by rw [has_put, hk, Bool.true_or]
      have hafter : has later k = false := by
        rw [← hnew]
        unfold has
        rw [get?_congr (BEq.symm hk)]
      rw [merge_cons, merge_cons, put_merge_of_has hthere hafter, put_put_of_eq base hk]
    · rw [merge_cons, merge_cons]
      exact ih hrest _

theorem merge_assoc (hb : Distinct later) (base last : List (κ × α)) :
    merge (merge base later) last = merge base (merge later last) := by
  induction last generalizing later with
  | nil => rfl
  | cons e last ih =>
    rw [merge_cons, merge_cons, ← merge_put hb, ih (distinct_put hb e.1 e.2)]

omit [EquivBEq κ] in
/-- Without repeated keys a table is the table of its entries. -/
theorem ofList_of_distinct (h : Distinct es) : ofList es = es := by
  have hmerge : merge [] es = [] ++ es := merge_of_distinct h
  exact hmerge

theorem merge_self (h : Distinct es) : merge es es = es :=
  merge_eq_self fun _ he => get?_of_mem h he

/-- A table that is merged twice is merged once. -/
theorem merge_merge_self (h : Distinct later) (base : List (κ × α)) :
    merge (merge base later) later = merge base later := by
  rw [merge_assoc h, merge_self h]

/-- Pairs are merged like the table that they make. -/
theorem merge_ofList (base pairs : List (κ × α)) : merge base (ofList pairs) = merge base pairs :=
  (merge_assoc List.Pairwise.nil base pairs).symm

end EntityApi.Entries
