import EntityApi.Proofs.Tables
import EntityApi.Proofs.Value.Texts
import EntityApi.Store.Session

/-! # Running steps over a store

What a step does is read off by running it, part by part: a step in a row with
another runs after it where that one succeeds, and not at all where it is
refused. Whether an event is logged depends on the journal, but never on what it
holds (`Step.IgnoresLog`). -/
namespace EntityApi.Step

variable {σ α β : Type} {session later : Session σ}

@[simp] theorem run_pure (a : α) : Step.run (pure a) session = (.ok a, session) := rfl

@[simp] theorem run_ofResult (r : Result α) : Step.run (ofResult r) session = (r, session) := rfl

@[simp] theorem run_look (f : σ → Result α) :
    Step.run (look f) session = (f session.store, session) := rfl

@[simp] theorem run_change (f : σ → α × σ) : Step.run (change f) session =
    (.ok (f session.store).1, { session with store := (f session.store).2 }) := rfl

theorem run_bind (x : Step σ α) (f : α → Step σ β) : Step.run (x >>= f) session =
    match Step.run x session with
    | (.ok a, later) => Step.run (f a) later
    | (.error e, later) => (.error e, later) := by
  change ExceptT.run (x >>= f) session = _
  rw [ExceptT.run_bind]
  change (StateT.bind x _) session = _
  unfold StateT.bind Step.run ExceptT.run
  rcases x session with ⟨a | e, later⟩ <;> rfl

theorem run_bind_of_ok {x : Step σ α} {f : α → Step σ β} {a : α}
    (h : Step.run x session = (.ok a, later)) :
    Step.run (x >>= f) session = Step.run (f a) later := by
  rw [run_bind, h]

theorem run_bind_of_error {x : Step σ α} {f : α → Step σ β} {e : Failure}
    (h : Step.run x session = (.error e, later)) :
    Step.run (x >>= f) session = (.error e, later) := by
  rw [run_bind, h]

/-- What follows without touching the store leaves it as it has become. -/
theorem run_bind_store {x : Step σ α} {f : α → Step σ β}
    (hf : ∀ a later, (Step.run (f a) later).2.store = later.store) :
    (Step.run (x >>= f) session).2.store = (Step.run x session).2.store := by
  rw [run_bind]
  rcases Step.run x session with ⟨e | a, later⟩
  · rfl
  · exact hf a later

/-- Two steps in a row succeed if the first does and the second does after it. -/
theorem run_bind_isOk {x : Step σ α} {f : α → Step σ β} :
    (Step.run (x >>= f) session).1.isOk = true ↔
      ∃ a later, Step.run x session = (.ok a, later) ∧ (Step.run (f a) later).1.isOk = true := by
  rw [run_bind]
  rcases Step.run x session with ⟨e | a, later⟩
  · simp [Except.isOk, Except.toBool]
  · constructor
    · intro h
      exact ⟨a, later, rfl, h⟩
    · rintro ⟨_, _, heq, h⟩
      cases heq
      exact h

/-- Two steps in a row are refused if the first is, or if the second is after it. -/
theorem run_bind_eq_error {x : Step σ α} {f : α → Step σ β} {e : Failure} :
    (Step.run (x >>= f) session).1 = .error e ↔ (Step.run x session).1 = .error e ∨
      ∃ a later, Step.run x session = (.ok a, later) ∧ (Step.run (f a) later).1 = .error e := by
  rw [run_bind]
  rcases Step.run x session with ⟨r | a, later⟩
  · simp
  · constructor
    · intro h
      exact .inr ⟨a, later, rfl, h⟩
    · rintro (h | ⟨_, _, heq, h⟩)
      · cases h
      · cases heq
        exact h

theorem run_ofResult_bind_eq_error {r : Result α} {f : α → Step σ β} {e : Failure} :
    (Step.run (ofResult r >>= f) session).1 = .error e ↔
      r = .error e ∨ ∃ a, r = .ok a ∧ (Step.run (f a) session).1 = .error e := by
  rw [run_bind, run_ofResult]
  cases r <;> simp

theorem run_look_bind_eq_error {f : σ → Result α} {g : α → Step σ β} {e : Failure} :
    (Step.run (look f >>= g) session).1 = .error e ↔ f session.store = .error e ∨
      ∃ a, f session.store = .ok a ∧ (Step.run (g a) session).1 = .error e := by
  rw [run_bind, run_look]
  cases f session.store <;> simp

theorem run_update_bind_eq_error {f : σ → Result σ} {g : Unit → Step σ β} {e : Failure} :
    (Step.run (update f >>= g) session).1 = .error e ↔ f session.store = .error e ∨
      ∃ store, f session.store = .ok store ∧
        (Step.run (g ()) { session with store := store }).1 = .error e := by
  rw [run_bind]
  unfold update Step.run ExceptT.run
  dsimp only
  cases f session.store <;> simp

theorem run_log_bind_eq_error {event : Log.Event} {g : Unit → Step σ β} {e : Failure} :
    (Step.run (log event >>= g) session).1 = .error e ↔ session.journal.record event = .error e ∨
      ∃ journal, session.journal.record event = .ok journal ∧
        (Step.run (g ()) { session with journal := journal }).1 = .error e := by
  rw [run_bind]
  unfold log Step.run ExceptT.run
  dsimp only
  cases session.journal.record event <;> simp

/-- Writing to the journal leaves the store alone. -/
theorem run_log_store (e : Log.Event) (session : Session σ) :
    (Step.run (log e) session).2.store = session.store := by
  unfold Step.run log ExceptT.run
  dsimp only
  split <;> rfl

theorem run_log_of_ok {e : Log.Event} {journal : Log.Journal}
    (h : session.journal.record e = .ok journal) :
    Step.run (log e) session = (.ok (), { session with journal := journal }) := by
  unfold Step.run log ExceptT.run
  dsimp only
  rw [h]

theorem run_log_of_error {e : Log.Event} {f : Failure} (h : session.journal.record e = .error f) :
    Step.run (log e) session = (.error f, session) := by
  unfold Step.run log ExceptT.run
  dsimp only
  rw [h]

end EntityApi.Step

namespace EntityApi

namespace Log.Journal

/-- The journals write the same lines for the same events, whatever lines they hold. -/
structure Alike (j k : Journal) : Prop where
  threshold : j.threshold = k.threshold
  now : j.now = k.now

variable {j k l : Journal} {e : Event}

theorem Alike.refl (j : Journal) : Alike j j := ⟨rfl, rfl⟩

theorem Alike.symm (h : Alike j k) : Alike k j := ⟨h.threshold.symm, h.now.symm⟩

theorem Alike.trans (h : Alike j k) (h' : Alike k l) : Alike j l :=
  ⟨h.threshold.trans h'.threshold, h.now.trans h'.now⟩

theorem Alike.admits_eq (h : Alike j k) (level : Int) : j.admits level = k.admits level := by
  unfold admits effective
  rw [h.threshold]

theorem Alike.lineOf_eq (h : Alike j k) (e : Event) : j.lineOf e = k.lineOf e := by
  unfold lineOf heading
  rw [h.now]

theorem alike_of_record {later : Journal} (h : j.record e = .ok later) : Alike later j := by
  unfold record at h
  split at h
  · obtain ⟨line, _, h⟩ := Result.bind_eq_ok.mp h
    cases h
    exact ⟨rfl, rfl⟩
  · cases h
    exact .refl j

/-- Journals that are alike refuse the same events, for the same reason. -/
theorem Alike.record (h : Alike j k) (e : Event) :
    (∃ f, j.record e = .error f ∧ k.record e = .error f) ∨
      ∃ j' k', j.record e = .ok j' ∧ k.record e = .ok k' := by
  unfold Journal.record
  rw [h.admits_eq, h.lineOf_eq]
  split
  · cases k.lineOf e with
    | error f => exact .inl ⟨f, rfl, rfl⟩
    | ok line => exact .inr ⟨_, _, rfl, rfl⟩
  · exact .inr ⟨j, k, rfl, rfl⟩

/-- Whether an event can be recorded does not depend on what has been recorded. -/
theorem record_isOk_of_record {later : Journal} (h : j.record e = .ok later) (other : Event) :
    (later.record other).isOk = (j.record other).isOk := by
  rcases (alike_of_record h).record other with ⟨f, hlater, hj⟩ | ⟨_, _, hlater, hj⟩
  · rw [hlater, hj]
  · rw [hlater, hj]
    rfl

/-- An event is recorded if each of its fields can be written. -/
theorem exists_record {event : Event}
    (h : ∀ f ∈ event.fields, ∃ j, f.2.toJson? = .ok j) (journal : Journal) :
    ∃ later, journal.record event = .ok later := by
  have hline : ∃ line, journal.lineOf event = .ok line := by
    have hrecord : ∀ f ∈ Entries.merge (journal.heading event.name) event.fields,
        ∃ j, f.2.toJson? = .ok j := by
      intro f hf
      rcases Entries.mem_merge hf with hf | hf
      · simp only [heading, List.mem_cons, List.not_mem_nil, or_false] at hf
        rcases hf with rfl | rfl <;> exact ⟨_, rfl⟩
      · exact h f hf
    obtain ⟨j, hj⟩ := Value.exists_toJson?_map hrecord
    unfold lineOf
    dsimp only
    rw [hj]
    exact ⟨_, rfl⟩
  obtain ⟨line, hline⟩ := hline
  unfold record
  split
  · rw [hline]
    exact ⟨_, rfl⟩
  · exact ⟨_, rfl⟩

end Log.Journal

namespace Step

open Log.Journal (Alike)

variable {σ α β : Type}

/-- What has been logged plays no part in what the step does. -/
def IgnoresLog (x : Step σ α) : Prop := ∀ (store : σ) {j k : Log.Journal}, Alike j k →
  ∃ r after j' k', x.run ⟨store, j⟩ = (r, ⟨after, j'⟩) ∧ x.run ⟨store, k⟩ = (r, ⟨after, k'⟩) ∧
    Alike j' j ∧ Alike k' k

theorem IgnoresLog.ofResult (r : Result α) : IgnoresLog (ofResult r : Step σ α) :=
  fun store _ _ _ => ⟨r, store, _, _, rfl, rfl, .refl _, .refl _⟩

theorem IgnoresLog.pure (a : α) : IgnoresLog (pure a : Step σ α) := .ofResult (.ok a)

theorem IgnoresLog.look (f : σ → Result α) : IgnoresLog (look f) :=
  fun store _ _ _ => ⟨f store, store, _, _, rfl, rfl, .refl _, .refl _⟩

theorem IgnoresLog.change (f : σ → α × σ) : IgnoresLog (change f) :=
  fun _ _ _ _ => ⟨_, _, _, _, rfl, rfl, .refl _, .refl _⟩

theorem IgnoresLog.log (e : Log.Event) : IgnoresLog (log e : Step σ Unit) := by
  intro store j k h
  rcases h.record e with ⟨f, hj, hk⟩ | ⟨j', k', hj, hk⟩
  · exact ⟨_, _, _, _, run_log_of_error hj, run_log_of_error hk, .refl j, .refl k⟩
  · exact ⟨_, _, _, _, run_log_of_ok hj, run_log_of_ok hk, Log.Journal.alike_of_record hj,
      Log.Journal.alike_of_record hk⟩

theorem IgnoresLog.bind {x : Step σ α} {f : α → Step σ β} (hx : IgnoresLog x)
    (hf : ∀ a, IgnoresLog (f a)) : IgnoresLog (x >>= f) := by
  intro store j k h
  obtain ⟨r, after, j₁, k₁, hj, hk, hj₁, hk₁⟩ := hx store h
  rw [run_bind, run_bind, hj, hk]
  cases r with
  | error e => exact ⟨_, _, _, _, rfl, rfl, hj₁, hk₁⟩
  | ok a =>
    obtain ⟨r, last, j₂, k₂, hj, hk, hj₂, hk₂⟩ := hf a after (hj₁.trans (h.trans hk₁.symm))
    exact ⟨r, last, j₂, k₂, hj, hk, hj₂.trans hj₁, hk₂.trans hk₁⟩

end Step

end EntityApi
