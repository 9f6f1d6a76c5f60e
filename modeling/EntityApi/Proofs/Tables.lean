import EntityApi.Entries

/-! # Laws of insertion-ordered tables

A list of pairs without a repeated key is its own table: storing its entries
one after another adds each at the end (`ofList_eq_self`), so that nothing is
overwritten and a look-up finds exactly the pairs of the list
(`get?_eq_some_iff`). The second half is about keys that equal nothing but
themselves (`Identified`), which is all that is known of the names of a record,
whose values need not even equal themselves. -/
namespace EntityApi.Entries

variable {κ α β : Type}

@[simp] theorem keys_nil : keys ([] : List (κ × α)) = [] := rfl

theorem nodup_keys_nil : (keys ([] : List (κ × α))).Nodup := List.Pairwise.nil

@[simp] theorem keys_cons (e : κ × α) (es : List (κ × α)) : keys (e :: es) = e.1 :: keys es := rfl

@[simp] theorem keys_append (a b : List (κ × α)) : keys (a ++ b) = keys a ++ keys b :=
  List.map_append

theorem mem_keys_of_mem {es : List (κ × α)} {e : κ × α} (h : e ∈ es) : e.1 ∈ keys es :=
  List.mem_map_of_mem h

theorem keys_flatten (tables : List (List (κ × α))) :
    keys tables.flatten = (tables.map keys).flatten := List.map_flatten

theorem length_keys (es : List (κ × α)) : (keys es).length = es.length := List.length_map _

/-- Storing the tables of several things in turn stores all their entries. -/
theorem foldl_merge [BEq κ] (f : β → List (κ × α)) (base : List (κ × α)) (l : List β) :
    l.foldl (fun es b => merge es (f b)) base = merge base (l.flatMap f) := by
  induction l generalizing base with
  | nil => rfl
  | cons b l ih => rw [List.foldl_cons, ih, List.flatMap_cons, merge_append]

/-- Storing tables in turn is storing all their entries. -/
theorem mergeAll_eq [BEq κ] (base : List (κ × α)) (tables : List (List (κ × α))) :
    mergeAll base tables = merge base tables.flatten := by
  have hfold := foldl_merge (fun table : List (κ × α) => table) base tables
  rw [List.flatMap_id'] at hfold
  exact hfold

theorem has_eq_false_iff [BEq κ] {es : List (κ × α)} {key : κ} :
    has es key = false ↔ ∀ e ∈ es, (e.1 == key) = false := by
  induction es with
  | nil => simp [has]
  | cons e es ih =>
    obtain ⟨k, a⟩ := e
    rw [List.forall_mem_cons, ← ih]
    cases hk : k == key <;> simp [has, get?, hk]

/-- Entries under keys that equal none before are stored at the end, in order. -/
theorem merge_of_distinct [BEq κ] {base later : List (κ × α)} (h : Distinct (base ++ later)) :
    merge base later = base ++ later := by
  induction later generalizing base with
  | nil => simp
  | cons e later ih =>
    have hsplit : base ++ e :: later = (base ++ [e]) ++ later := by simp
    have hnew : has base e.1 = false :=
      has_eq_false_iff.mpr fun e' he' => (List.pairwise_append.mp h).2.2 e' he' e List.mem_cons_self
    rw [merge_cons, put_of_not_has base e.1 e.2 hnew, hsplit]
    exact ih (hsplit ▸ h)

/-! ## Look-ups beside a single entry -/

section Insertion

variable [BEq κ]

theorem get?_append (before after : List (κ × α)) (key : κ) :
    get? (before ++ after) key = (get? before key).or (get? after key) := by
  induction before with
  | nil => rfl
  | cons e before ih =>
    obtain ⟨k, a⟩ := e
    simp only [List.cons_append, get?]
    split
    · rfl
    · exact ih

theorem get?_insert_of_ne {before after : List (κ × α)} {k key : κ} (a : α)
    (h : (k == key) = false) : get? (before ++ (k, a) :: after) key = get? (before ++ after) key := by
  rw [get?_append, get?_append, get?, h]
  rfl

theorem get?_insert_of_none {before after : List (κ × α)} {k key : κ} (a : α)
    (hk : (k == key) = true) (h : get? (before ++ after) key = none) :
    get? (before ++ (k, a) :: after) key = some a := by
  rw [get?_append, Option.or_eq_none_iff] at h
  rw [get?_append, h.1, get?, hk]
  rfl

/-- An entry whose value changes matters to look-ups that find it, and to no others. -/
theorem get?_replace (before after : List (κ × α)) (k key : κ) (a b : α) :
    get? (before ++ (k, a) :: after) key = get? (before ++ (k, b) :: after) key ∨
      get? (before ++ (k, a) :: after) key = some a ∧
        get? (before ++ (k, b) :: after) key = some b := by
  rw [get?_append, get?_append, get?, get?]
  cases get? before key with
  | some c => exact .inl rfl
  | none =>
    split
    · exact .inr ⟨rfl, rfl⟩
    · exact .inl rfl

/-- Which keys there are does not depend on the values. -/
theorem has_replace (before after : List (κ × α)) (k key : κ) (a b : α) :
    has (before ++ (k, a) :: after) key = has (before ++ (k, b) :: after) key := by
  unfold has
  rcases get?_replace before after k key a b with h | ⟨ha, hb⟩
  · rw [h]
  · rw [ha, hb]
    rfl

end Insertion

/-! ## Keys that are compared by identity -/

section Lawful

variable [BEq κ] [LawfulBEq κ]

theorem get?_eq_none_iff {es : List (κ × α)} {key : κ} : get? es key = none ↔ key ∉ keys es := by
  induction es with
  | nil => simp
  | cons e es ih =>
    obtain ⟨k, a⟩ := e
    by_cases hk : k = key
    · subst hk; simp [get?]
    · have hk' : ¬key = k := fun h => hk h.symm
      simp [get?, hk, hk', ih]

theorem has_eq_false_of_not_mem {es : List (κ × α)} {key : κ} (h : key ∉ keys es) :
    has es key = false := by
  simp [has, get?_eq_none_iff.mpr h]

theorem mem_of_get? {es : List (κ × α)} {key : κ} {a : α} (h : get? es key = some a) :
    (key, a) ∈ es := by
  induction es with
  | nil => simp at h
  | cons e es ih =>
    obtain ⟨k, b⟩ := e
    simp only [get?] at h
    split at h
    · rename_i hk
      rw [eq_of_beq hk, Option.some.inj h]
      exact List.mem_cons_self
    · exact List.mem_cons_of_mem _ (ih h)

/-- Without repeated keys a look-up finds exactly the pairs of the list. -/
theorem get?_eq_some_iff {es : List (κ × α)} (hn : (keys es).Nodup) {key : κ} {a : α} :
    get? es key = some a ↔ (key, a) ∈ es := by
  refine ⟨mem_of_get?, ?_⟩
  intro h
  induction es with
  | nil => cases h
  | cons e es ih =>
    obtain ⟨k, b⟩ := e
    obtain ⟨hk, hn⟩ := List.nodup_cons.mp hn
    rcases List.mem_cons.mp h with h | h
    · obtain ⟨rfl, rfl⟩ := Prod.mk.inj h
      simp [get?]
    · have hne : ¬k = key := by
        intro he
        subst he
        have hm := mem_keys_of_mem h
        exact hk hm
      simpa [get?, hne] using ih hn h

/-- Entries under new and distinct keys are stored at the end, in order. -/
theorem merge_eq_append {base later : List (κ × α)} (h : (keys (base ++ later)).Nodup) :
    merge base later = base ++ later := by
  refine merge_of_distinct ?_
  unfold Distinct
  simpa only [keys, List.Nodup, List.pairwise_map, beq_eq_false_iff_ne] using h

theorem ofList_eq_self {pairs : List (κ × α)} (h : (keys pairs).Nodup) : ofList pairs = pairs := by
  have hmerge : merge [] pairs = [] ++ pairs := merge_eq_append (by simpa using h)
  exact hmerge

/-- Storing adds no entry but the stored one. -/
theorem mem_put {es : List (κ × α)} {key : κ} {a : α} {e : κ × α} (h : e ∈ put es key a) :
    e ∈ es ∨ e = (key, a) := by
  induction es with
  | nil => exact .inr (List.mem_singleton.mp h)
  | cons e' es ih =>
    obtain ⟨k, b⟩ := e'
    simp only [put] at h
    split at h
    · rename_i hk
      rcases List.mem_cons.mp h with rfl | h
      · exact .inr (by rw [eq_of_beq hk])
      · exact .inl (List.mem_cons_of_mem _ h)
    · rcases List.mem_cons.mp h with rfl | h
      · exact .inl List.mem_cons_self
      · rcases ih h with h | h
        · exact .inl (List.mem_cons_of_mem _ h)
        · exact .inr h

theorem mem_merge {base later : List (κ × α)} {e : κ × α} (h : e ∈ merge base later) :
    e ∈ base ∨ e ∈ later := by
  induction later generalizing base with
  | nil => exact .inl h
  | cons e' later ih =>
    rcases ih h with h | h
    · rcases mem_put h with h | rfl
      · exact .inl h
      · exact .inr List.mem_cons_self
    · exact .inr (List.mem_cons_of_mem _ h)

theorem mem_ofList {pairs : List (κ × α)} {e : κ × α} (h : e ∈ ofList pairs) : e ∈ pairs := by
  rcases mem_merge h with h | h
  · cases h
  · exact h

theorem keys_put (es : List (κ × α)) (key : κ) (a : α) :
    keys (put es key a) = if key ∈ keys es then keys es else keys es ++ [key] := by
  split
  · rename_i hmem
    apply keys_put_of_has
    cases hhas : has es key with
    | true => rfl
    | false =>
      simp only [has, Option.isSome_eq_false_iff, Option.isNone_iff_eq_none] at hhas
      exact absurd hmem (get?_eq_none_iff.mp hhas)
  · rename_i hmem
    rw [put_of_not_has es key a (has_eq_false_of_not_mem hmem), keys_append, keys_cons, keys_nil]

theorem nodup_keys_put {es : List (κ × α)} (h : (keys es).Nodup) (key : κ) (a : α) :
    (keys (put es key a)).Nodup := by
  rw [keys_put]
  split
  · exact h
  · rename_i hmem
    refine List.nodup_append.mpr ⟨h, List.pairwise_singleton _ _, ?_⟩
    intro k hk k' hk' heq
    rw [List.mem_singleton.mp hk'] at heq
    exact hmem (heq ▸ hk)

theorem nodup_keys_merge {base : List (κ × α)} (h : (keys base).Nodup) (later : List (κ × α)) :
    (keys (merge base later)).Nodup := by
  induction later generalizing base with
  | nil => exact h
  | cons e later ih => exact ih (nodup_keys_put h e.1 e.2)

theorem nodup_keys_ofList (pairs : List (κ × α)) : (keys (ofList pairs)).Nodup :=
  nodup_keys_merge nodup_keys_nil pairs

theorem eraseDups_of_nodup {l : List κ} (h : l.Nodup) : l.eraseDups = l := by
  induction l with
  | nil => rfl
  | cons a l ih =>
    obtain ⟨ha, hl⟩ := List.nodup_cons.mp h
    have hothers : l.filter (fun b => !b == a) = l := by
      rw [List.filter_eq_self]
      intro b hb
      have hne : b ≠ a := fun heq => ha (heq ▸ hb)
      simpa using hne
    rw [List.eraseDups_cons, hothers, ih hl]

/-- The keys of a table and of what is stored into it, each where it occurs first. -/
theorem keys_merge {base : List (κ × α)} (h : (keys base).Nodup) (later : List (κ × α)) :
    keys (merge base later) = (keys base ++ keys later).eraseDups := by
  induction later generalizing base with
  | nil => rw [merge_nil, keys_nil, List.append_nil, eraseDups_of_nodup h]
  | cons e later ih =>
    rw [merge_cons, ih (nodup_keys_put h e.1 e.2), keys_put, keys_cons]
    split
    · -- the key is there already and is dropped from the rest
      rename_i hmem
      have hdrop : (e.1 :: keys later).removeAll (keys base) = (keys later).removeAll (keys base) := by
        simp [List.removeAll, hmem]
      rw [List.eraseDups_append, List.eraseDups_append, hdrop]
    · rw [List.append_assoc, List.singleton_append]

theorem keys_ofList (pairs : List (κ × α)) : keys (ofList pairs) = (keys pairs).eraseDups := by
  rw [ofList, keys_merge nodup_keys_nil, keys_nil, List.nil_append]

/-- What is left of a list without repetitions are the keys of a table. -/
theorem nodup_eraseDups (l : List κ) : l.eraseDups.Nodup := by
  have hkeys : keys (l.map fun k => (k, ())) = l := by simp [keys, Function.comp_def]
  have hnodup := nodup_keys_ofList (l.map fun k => (k, ()))
  rwa [keys_ofList, hkeys] at hnodup

theorem keys_mergeAll {base : List (κ × α)} (h : (keys base).Nodup)
    (tables : List (List (κ × α))) :
    keys (mergeAll base tables) = (keys base ++ (tables.map keys).flatten).eraseDups := by
  rw [mergeAll_eq, keys_merge h, keys_flatten]

end Lawful

/-- Distinct names are sorted strictly. -/
theorem pairwise_lt_mergeSort {names : List String} (h : names.Nodup) :
    (names.mergeSort fun a b => decide (a ≤ b)).Pairwise (· < ·) := by
  have hnodup : (names.mergeSort fun a b => decide (a ≤ b)).Nodup :=
    (List.mergeSort_perm _ _).nodup_iff.mpr h
  have hsorted : (names.mergeSort fun a b => decide (a ≤ b)).Pairwise
      fun a b => decide (a ≤ b) = true := by
    apply List.pairwise_mergeSort
    · intro a b c hab hbc
      simp only [decide_eq_true_eq] at hab hbc ⊢
      exact String.le_trans hab hbc
    · intro a b
      simpa using String.le_total a b
  exact (hsorted.and hnodup).imp fun h => Std.lt_of_le_of_ne (of_decide_eq_true h.1) h.2

/-! ## Keys that equal nothing but themselves -/

section Identified

variable [BEq κ]

/-- The key equals itself and nothing else, on either side. -/
structure Identified (key : κ) : Prop where
  left : ∀ k, (k == key) = true ↔ k = key
  right : ∀ k, (key == k) = true ↔ key = k

theorem get?_put_identified {key : κ} (hk : Identified key) (es : List (κ × α)) (a : α) (other : κ) :
    get? (put es key a) other = if key == other then some a else get? es other := by
  induction es with
  | nil => simp [put, get?]
  | cons e es ih =>
    obtain ⟨k, b⟩ := e
    simp only [put]
    split
    · rename_i h
      obtain rfl := (hk.left k).mp h
      simp only [get?]
      split <;> rfl
    · rename_i h
      simp only [get?, ih]
      split
      · -- what holds this entry is not what is stored
        rename_i ho
        rw [if_neg]
        intro hko
        obtain rfl := (hk.right other).mp hko
        exact h ho
      · rfl

theorem get?_put_self {key : κ} (hk : Identified key) (es : List (κ × α)) (a : α) :
    get? (put es key a) key = some a := by
  rw [get?_put_identified hk, if_pos ((hk.left key).mpr rfl)]

theorem get?_put_of_ne {key other : κ} (ho : Identified other) (h : key ≠ other)
    (es : List (κ × α)) (a : α) : get? (put es key a) other = get? es other := by
  have hkey : (key == other) = false := by
    cases hb : key == other with
    | false => rfl
    | true => exact absurd ((ho.left key).mp hb) h
  induction es with
  | nil => simp [put, get?, hkey]
  | cons e es ih =>
    obtain ⟨k, b⟩ := e
    simp only [put]
    split
    · -- the entry that is overwritten is not the one that is looked up
      rename_i hk
      have hko : (k == other) = false := by
        cases hb : k == other with
        | false => rfl
        | true =>
          have hk' := (ho.left k).mp hb
          rw [hk'] at hk
          exact absurd ((ho.right key).mp hk).symm h
      simp [get?, hko]
    · simp only [get?, ih]

theorem get?_merge_of_ne {other : κ} (ho : Identified other) {base later : List (κ × α)}
    (h : ∀ e ∈ later, e.1 ≠ other) : get? (merge base later) other = get? base other := by
  induction later generalizing base with
  | nil => rfl
  | cons e later ih =>
    rw [merge_cons, ih fun e' he' => h e' (List.mem_cons_of_mem _ he')]
    exact get?_put_of_ne ho (h e List.mem_cons_self) base e.2

theorem get?_eq_none_iff_ne {key : κ} (hk : Identified key) {es : List (κ × α)} :
    get? es key = none ↔ ∀ e ∈ es, e.1 ≠ key := by
  induction es with
  | nil => simp
  | cons e es ih =>
    obtain ⟨k, a⟩ := e
    rw [List.forall_mem_cons, ← ih, get?]
    split
    · rename_i h
      simp [(hk.left k).mp h]
    · rename_i h
      have hne : k ≠ key := fun he => h ((hk.left k).mpr he)
      exact (and_iff_right hne).symm

/-- What is written over a table decides, where it has something. -/
theorem get?_merge_of_distinct {later : List (κ × α)} (hid : ∀ e ∈ later, Identified e.1)
    (hd : Distinct later) (base : List (κ × α)) (name : κ) :
    get? (merge base later) name = (get? later name).or (get? base name) := by
  induction later generalizing base with
  | nil => rfl
  | cons e later ih =>
    obtain ⟨k, a⟩ := e
    obtain ⟨hk, hid⟩ := List.forall_mem_cons.mp hid
    obtain ⟨hfirst, hd⟩ := List.pairwise_cons.mp hd
    rw [merge_cons, ih hid hd, get?_put_identified hk]
    simp only [get?]
    split
    · -- no later entry is stored under the same key
      rename_i hname
      obtain rfl := (hk.right name).mp hname
      have hnone : get? later k = none := (get?_eq_none_iff_ne hk).mpr fun e he heq => by
        have hne : (k == e.1) = false := hfirst e he
        rw [heq, (hk.left k).mpr rfl] at hne
        cases hne
      rw [hnone]
      rfl
    · rfl

theorem get?_remove_self (key : κ) (es : List (κ × α)) : get? (remove es key) key = none := by
  induction es with
  | nil => rfl
  | cons e es ih =>
    obtain ⟨k, a⟩ := e
    cases hk : k == key with
    | true => simpa [remove, hk] using ih
    | false => simpa [remove, hk, get?] using ih

theorem get?_remove_of_ne {key name : κ} (hk : Identified key) (h : name ≠ key)
    (es : List (κ × α)) : get? (remove es key) name = get? es name := by
  induction es with
  | nil => rfl
  | cons e es ih =>
    obtain ⟨k, a⟩ := e
    cases hkey : k == key with
    | false =>
      have hcons : remove ((k, a) :: es) key = (k, a) :: remove es key := by simp [remove, hkey]
      rw [hcons, get?, get?, ih]
    | true =>
      obtain rfl := (hk.left k).mp hkey
      have hname : ¬(k == name) = true := fun hn => h ((hk.right name).mp hn).symm
      have hcons : remove ((k, a) :: es) k = remove es k := by simp [remove, hkey]
      rw [hcons, ih, get?, if_neg hname]

end Identified

end EntityApi.Entries
