import EntityApi.Proofs.Store.Keys

/-! # When generated keys are fresh

A store counts its generated keys up from the largest key it started with, and
keys that a caller passes do not move the counter. A generated key is therefore
new among the keys that were there at the start and those generated since, but
not among the passed ones: a passed key from the counter on is generated once
more when the counter gets there. What has to be avoided is exactly that
(`fresh_iff_clear_of_counter`). The induction over a run ties every key in the
store to the stretch that the counter has still to go (`Outside`,
`outside_apply_iff`). -/
namespace EntityApi.MemoryStore

/-! ## Runs of writes -/

/-- A write to the store, through its own operations. -/
inductive Write where
  | create (fields : Row)
  | update (key : Value) (fields : Row)

def apply (s : MemoryStore) : Write → MemoryStore
  | .create fields => (s.create fields).2
  | .update key fields => (s.update key fields).2

/-- The store after a run of writes. -/
def after (s : MemoryStore) (ws : List Write) : MemoryStore := ws.foldl apply s

/-- Something holds of each write of a run and of the store as that write finds it. -/
def Along (P : MemoryStore → Write → Prop) : MemoryStore → List Write → Prop
  | _, [] => True
  | s, w :: ws => P s w ∧ Along P (s.apply w) ws

/-- A created record has no key, or a whole number that is not in use; an update leaves the key
column out. -/
def Admissible (s : MemoryStore) : Write → Prop
  | .create fields => (keyOf s.primaryKey fields).isNull = true ∨
      ((keyOf s.primaryKey fields).index?.isSome = true ∧
        ∀ k ∈ keysOf s.primaryKey s.rows, (k == keyOf s.primaryKey fields) = false)
  | .update _ fields => Entries.get? fields (.text s.primaryKey) = none

/-- If the write has a key generated, that key is not in use. -/
def GeneratesFresh (s : MemoryStore) : Write → Prop
  | .create fields => (keyOf s.primaryKey fields).isNull = true →
      ∀ k ∈ keysOf s.primaryKey s.rows, (k == keyOf s.primaryKey (s.create fields).1) = false
  | .update _ _ => True

/-- The key is none of the whole numbers from `low` on and below `high`. -/
def Outside (low high : Int) (key : Value) : Prop :=
  ∀ n, key.index? = some n → n < low ∨ high ≤ n

/-- If the write passes a key, it is none of those that the counter goes through until it shows
`final`. -/
def Clear (final : Int) (s : MemoryStore) : Write → Prop
  | .create fields => Outside s.nextKey final (keyOf s.primaryKey fields)
  | .update _ _ => True

/-! ## What one write does -/

section

variable {s : MemoryStore} {w : Write} {ws : List Write} {fields : Row}

@[simp] theorem apply_primaryKey : (s.apply w).primaryKey = s.primaryKey := by
  cases w with
  | create fields => simp only [apply, create]; split <;> rfl
  | update key fields => rfl

@[simp] theorem apply_autoIncrement : (s.apply w).autoIncrement = s.autoIncrement := by
  cases w with
  | create fields => simp only [apply, create]; split <;> rfl
  | update key fields => rfl

theorem nextKey_le_apply : s.nextKey ≤ (s.apply w).nextKey := by
  cases w with
  | create fields =>
    simp only [apply, create]
    split
    · exact Int.le_add_of_nonneg_right (by decide)
    · exact Int.le_refl _
  | update key fields => exact Int.le_refl _

theorem nextKey_le_after : s.nextKey ≤ (s.after ws).nextKey := by
  induction ws generalizing s with
  | nil => exact Int.le_refl _
  | cons w ws ih => exact Int.le_trans nextKey_le_apply ih

/-- The key of a record is generated: the counter gives it and moves on. -/
theorem apply_create_without_key (ha : s.autoIncrement = true)
    (hk : (keyOf s.primaryKey fields).isNull = true) :
    keyOf s.primaryKey (s.create fields).1 = .int s.nextKey ∧
      keysOf s.primaryKey (s.apply (.create fields)).rows =
        keysOf s.primaryKey s.rows ++ [.int s.nextKey] ∧
      (s.apply (.create fields)).nextKey = s.nextKey + 1 := by
  simp only [apply, create_without_key ha hk, keysOf_append]
  refine ⟨keyOf_put fields _, ?_, trivial⟩
  simp [keysOf, keyOf_put]

/-- The key of a record is passed: the counter does not take notice of it. -/
theorem apply_create_with_key (hk : (keyOf s.primaryKey fields).isNull = false) :
    keysOf s.primaryKey (s.apply (.create fields)).rows =
        keysOf s.primaryKey s.rows ++ [keyOf s.primaryKey fields] ∧
      (s.apply (.create fields)).nextKey = s.nextKey := by
  simp only [apply, create_with_key hk, keysOf_append]
  exact ⟨rfl, trivial⟩

theorem apply_update (key : Value) (h : Entries.get? fields (.text s.primaryKey) = none) :
    keysOf s.primaryKey (s.apply (.update key fields)).rows = keysOf s.primaryKey s.rows :=
  keysOf_overlay h

/-- A write keeps distinct keys distinct if the key it generates is fresh. -/
theorem WellKeyed.apply (hw : WellKeyed s.primaryKey s.rows) (ha : s.autoIncrement = true)
    (hadm : s.Admissible w) (hf : s.GeneratesFresh w) :
    WellKeyed s.primaryKey (s.apply w).rows := by
  cases w with
  | create fields =>
    cases hk : (keyOf s.primaryKey fields).isNull with
    | true =>
      have hnew := hf hk
      have hkey := (apply_create_without_key ha hk).1
      simp only [MemoryStore.apply, create_without_key ha hk] at hnew hkey ⊢
      refine hw.append ?_ hnew
      rw [hkey]
      rfl
    | false =>
      obtain hnull | ⟨hwhole, hnew⟩ := hadm
      · rw [hk] at hnull; cases hnull
      · simp only [MemoryStore.apply, create_with_key hk]
        exact hw.append hwhole hnew
  | update key fields => exact hw.overlay hadm

end

/-! ## Keys beside the way of the counter -/

theorem outside_of_index?_eq_none {low high : Int} {k : Value} (hk : k.index? = none) :
    Outside low high k := by
  intro n hn
  rw [hk] at hn
  cases hn

theorem outside_of_index?_eq_some {low high n : Int} {k : Value} (hk : k.index? = some n)
    (h : n < low ∨ high ≤ n) : Outside low high k := by
  intro m hm
  rw [hk] at hm
  obtain rfl := Option.some.inj hm
  exact h

/-- The counter going past a key, one step at a time. -/
theorem outside_succ_iff {low high : Int} {k : Value} (hk : k.index?.isSome = true)
    (h : low + 1 ≤ high) :
    ((k == .int low) = false ∧ Outside (low + 1) high k) ↔ Outside low high k := by
  obtain ⟨n, hn⟩ := Option.isSome_iff_exists.mp hk
  rw [Value.beq_of_index?_index? hn rfl]
  simp only [Outside, hn, Option.some.injEq, forall_eq', beq_eq_false_iff_ne, ne_eq]
  omega

theorem whole_apply {s : MemoryStore} {w : Write} (ha : s.autoIncrement = true)
    (hwhole : ∀ k ∈ keysOf s.primaryKey s.rows, k.index?.isSome = true) (hadm : s.Admissible w) :
    ∀ k ∈ keysOf s.primaryKey (s.apply w).rows, k.index?.isSome = true := by
  cases w with
  | update key fields =>
    rw [apply_update key hadm]
    exact hwhole
  | create fields =>
    intro k hm
    cases hk : (keyOf s.primaryKey fields).isNull with
    | true =>
      rw [(apply_create_without_key ha hk).2.1] at hm
      rcases List.mem_append.mp hm with hm | hm
      · exact hwhole k hm
      · rw [List.mem_singleton.mp hm]; rfl
    | false =>
      obtain hnull | ⟨hkey, -⟩ := hadm
      · rw [hk] at hnull; cases hnull
      · rw [(apply_create_with_key hk).1] at hm
        rcases List.mem_append.mp hm with hm | hm
        · exact hwhole k hm
        · rw [List.mem_singleton.mp hm]; exact hkey

/-- One write: the keys stay beside the way of the counter, and what it generates is fresh, exactly
if they were beside it before and the write passes none on it. -/
theorem outside_apply_iff {s : MemoryStore} {w : Write} {final : Int} (ha : s.autoIncrement = true)
    (hwhole : ∀ k ∈ keysOf s.primaryKey s.rows, k.index?.isSome = true) (hadm : s.Admissible w)
    (hle : (s.apply w).nextKey ≤ final) :
    (s.GeneratesFresh w ∧
        ∀ k ∈ keysOf s.primaryKey (s.apply w).rows, Outside (s.apply w).nextKey final k) ↔
      (∀ k ∈ keysOf s.primaryKey s.rows, Outside s.nextKey final k) ∧ Clear final s w := by
  cases w with
  | update key fields =>
    rw [apply_update key hadm]
    simp only [GeneratesFresh, Clear, true_and, and_true]
    rfl
  | create fields =>
    cases hk : (keyOf s.primaryKey fields).isNull with
    | false =>
      obtain ⟨hkeys, hnext⟩ := apply_create_with_key hk
      rw [hkeys, hnext]
      simp [GeneratesFresh, Clear, hk, or_imp, forall_and]
    | true =>
      obtain ⟨hgiven, hkeys, hnext⟩ := apply_create_without_key ha hk
      have hnone : Outside s.nextKey final (keyOf s.primaryKey fields) :=
        outside_of_index?_eq_none (Value.index?_eq_none_of_isNull hk)
      have hself : Outside (s.nextKey + 1) final (.int s.nextKey) :=
        outside_of_index?_eq_some rfl (.inl (Int.lt_succ _))
      -- the step of the counter over its own key is what freshness adds
      have hstep : ∀ k ∈ keysOf s.primaryKey s.rows,
          (((k == .int s.nextKey) = false ∧ Outside (s.nextKey + 1) final k) ↔
            Outside s.nextKey final k) :=
        fun k hm => outside_succ_iff (hwhole k hm) (hnext ▸ hle)
      rw [hkeys, hnext]
      simp only [GeneratesFresh, Clear, hk, hgiven, hnone, forall_const, and_true]
      rw [← forall₂_congr hstep]
      simp [hself, or_imp, forall_and]

/-! ## Runs -/

/-- Generated keys are fresh throughout a run if and only if no key, be it there at the start or
passed later, lies on the way that the counter goes from there on. -/
theorem fresh_iff_outside {s : MemoryStore} {ws : List Write} (ha : s.autoIncrement = true)
    (hwhole : ∀ k ∈ keysOf s.primaryKey s.rows, k.index?.isSome = true)
    (hadm : Along Admissible s ws) :
    Along GeneratesFresh s ws ↔
      (∀ k ∈ keysOf s.primaryKey s.rows, Outside s.nextKey (s.after ws).nextKey k) ∧
        Along (Clear (s.after ws).nextKey) s ws := by
  induction ws generalizing s with
  | nil =>
    refine ⟨fun _ => ⟨fun k _ n _ => ?_, trivial⟩, fun _ => trivial⟩
    exact Int.lt_or_le n s.nextKey
  | cons w ws ih =>
    obtain ⟨hw, hws⟩ := hadm
    have hrest := whole_apply ha hwhole hw
    have hle : (s.apply w).nextKey ≤ ((s.apply w).after ws).nextKey := nextKey_le_after
    have hstep := outside_apply_iff ha hwhole hw hle
    rw [← apply_primaryKey (w := w)] at hrest
    have hrun := ih (by rw [apply_autoIncrement]; exact ha) hrest hws
    rw [apply_primaryKey] at hrun
    show s.GeneratesFresh w ∧ Along GeneratesFresh (s.apply w) ws ↔
      _ ∧ Clear ((s.apply w).after ws).nextKey s w ∧ _
    rw [hrun, ← and_assoc, hstep, and_assoc]
    rfl

/-- With fresh generated keys the keys are distinct in every state of a run. -/
theorem wellKeyed_along {s : MemoryStore} {ws : List Write} (ha : s.autoIncrement = true)
    (hw : WellKeyed s.primaryKey s.rows) (hadm : Along Admissible s ws)
    (hf : Along GeneratesFresh s ws) {before : List Write} (hb : before <+: ws) :
    WellKeyed s.primaryKey (s.after before).rows := by
  induction ws generalizing s before with
  | nil =>
    rw [List.prefix_nil.mp hb]
    exact hw
  | cons w ws ih =>
    rcases List.prefix_cons_iff.mp hb with rfl | ⟨rest, rfl, hrest⟩
    · exact hw
    · have hstep := hw.apply ha hadm.1 hf.1
      have := ih (s := s.apply w) (by rw [apply_autoIncrement]; exact ha)
        (by rw [apply_primaryKey]; exact hstep) hadm.2 hf.2 hrest
      rw [apply_primaryKey] at this
      exact this

/-- **When generated keys are fresh.** In a run from rows with distinct whole numbers as keys, every
generated key is new to the store, and the keys are distinct in every state, if and only if no
passed key lies between what the counter shows at that moment and what it shows at the end. -/
theorem fresh_iff_clear_of_counter {primaryKey : String} {rows : List Row} {reportsCount : Bool}
    {ws : List Write} (hw : WellKeyed primaryKey rows)
    (hadm : Along Admissible (ofRows primaryKey rows true reportsCount) ws) :
    (Along GeneratesFresh (ofRows primaryKey rows true reportsCount) ws ∧
        ∀ before, before <+: ws →
          WellKeyed primaryKey ((ofRows primaryKey rows true reportsCount).after before).rows) ↔
      Along (Clear ((ofRows primaryKey rows true reportsCount).after ws).nextKey)
        (ofRows primaryKey rows true reportsCount) ws := by
  have hinitial : ∀ k ∈ keysOf primaryKey rows, Outside (largestKey primaryKey rows + 1)
      ((ofRows primaryKey rows true reportsCount).after ws).nextKey k := by
    intro k hk n hn
    have := le_largestKey hk hn
    exact .inl (Int.lt_add_one_of_le this)
  have hiff := fresh_iff_outside (s := ofRows primaryKey rows true reportsCount) rfl hw.whole hadm
  constructor
  · rintro ⟨hf, -⟩
    exact (hiff.mp hf).2
  · intro hc
    have hf := hiff.mpr ⟨hinitial, hc⟩
    exact ⟨hf, fun before hb => wellKeyed_along rfl hw hadm hf hb⟩

/-- A record of each kind: with a generated key, with a passed key that the counter does not reach,
and with a generated key again. -/
theorem fresh_beside_passed_key :
    let start := ofRows "id" [[(.text "id", .int 1)]] true true
    let ws := [.create [(.text "name", .text "Ann")], .create [(.text "id", .int 100)],
      .update (.int 100) [(.text "name", .text "Bob")], .create []]
    WellKeyed "id" [[(.text "id", .int 1)]] ∧ Along Admissible start ws ∧
      Along (Clear (start.after ws).nextKey) start ws ∧ Along GeneratesFresh start ws ∧
      (keysOf "id" (start.after ws).rows).map Value.index? =
        [some 1, some 2, some 100, some 3] := by
  intro start ws
  have hw : WellKeyed "id" [[(.text "id", .int 1)]] := ⟨by decide +kernel, by decide +kernel⟩
  have hadm : Along Admissible start ws := by
    refine ⟨.inl (by decide +kernel), .inr ⟨by decide +kernel, by decide +kernel⟩, ?_,
      .inl (by decide +kernel), trivial⟩
    exact Option.isNone_iff_eq_none.mp (by decide +kernel)
  have hclear : Along (Clear (start.after ws).nextKey) start ws := by
    exact ⟨outside_of_index?_eq_none (by decide +kernel),
      outside_of_index?_eq_some (n := 100) (by decide +kernel) (.inr (by decide +kernel)), trivial,
      outside_of_index?_eq_none (by decide +kernel), trivial⟩
  exact ⟨hw, hadm, hclear, ((fresh_iff_clear_of_counter hw hadm).mpr hclear).1, by decide +kernel⟩

/-- A key is passed to an empty store, and the next generated key is the same. -/
theorem generated_key_taken :
    let start := ofRows "id" [] true true
    let ws := [.create [(.text "id", .int 1)], .create []]
    WellKeyed "id" [] ∧ Along Admissible start ws ∧ ¬Along GeneratesFresh start ws ∧
      ¬WellKeyed "id" (start.after ws).rows := by
  intro start ws
  have hadm : Along Admissible start ws :=
    ⟨.inr ⟨by decide +kernel, by decide +kernel⟩, .inl (by decide +kernel), trivial⟩
  refine ⟨⟨by decide +kernel, by decide +kernel⟩, hadm, ?_, ?_⟩
  · intro hf
    have := hf.2.1 (by decide +kernel)
    exact absurd this (by decide +kernel)
  · intro hw
    exact absurd hw.distinct (by decide +kernel)

end EntityApi.MemoryStore
