import EntityApi.Proofs.Sql.Clauses
import EntityApi.Proofs.Sql.Commits

/-! # How a table is visited

Every request to a table comes down to visits, one after another (`Pays`): none
if its statement cannot be made, one for most, and a second one for a creation
that reads its record back. The first visit of a creation or an update commits
exactly under the conditions of `Store.Inserts` and `Store.Updates`, no other
visit ever does, and a fault of the driver is the end of the request
(`request_disciplined`). -/
namespace EntityApi.Sql

variable {α β : Type} {session later : Session Link}

/-! ## Steps that pay visits -/

/-- The step makes the calls of the visits, in turn, and a fault ends it. -/
structure Pays (x : LinkStep α) (session : Session Link) (visits : List Visit) : Prop where
  proper : ∀ v ∈ visits, v.Proper
  ran : Ran session.store (visits.flatMap Visit.calls) (x.run session).2.store
  surfaces : Surfaces (session.store.faults (visits.flatMap Visit.calls)) (x.run session).1

namespace Pays

variable {x : LinkStep α} {f : α → LinkStep β} {first second : List Visit}

theorem of_store_eq (h : (x.run session).2.store = session.store) : Pays x session [] where
  proper := by simp
  ran := by rw [h]; exact Ran.refl _
  surfaces := trivial

theorem unit {body : LinkStep α} (hb : OnCursor body) (commits : Bool) (session : Session Link) :
    ∃ v, Pays (LinkStep.unit commits body) session [v] ∧
      v.committed = (commits && ((LinkStep.unit commits body).run session).1.isOk) := by
  obtain ⟨v, hproper, hran, hfault, hcommitted⟩ := unit_visit hb commits session
  refine ⟨v, ⟨?_, ?_, ?_⟩, hcommitted⟩
  · intro w hw
    rw [List.mem_singleton.mp hw]
    exact hproper
  · simpa using hran
  · simpa using hfault

theorem bind_of_ok {a : α} (hx : x.run session = (.ok a, later)) (h : Pays x session first)
    (h' : Pays (f a) later second) : Pays (x >>= f) session (first ++ second) := by
  have hran := h.ran
  have hfault := h.surfaces
  rw [hx] at hran hfault
  constructor
  · intro v hv
    rcases List.mem_append.mp hv with hv | hv
    · exact h.proper v hv
    · exact h'.proper v hv
  · rw [Step.run_bind_of_ok hx, List.flatMap_append]
    exact hran.trans h'.ran
  · rw [Step.run_bind_of_ok hx, List.flatMap_append, hran.faults]
    exact hfault.append h'.surfaces

theorem bind_of_error {e : Failure} (hx : x.run session = (.error e, later))
    (h : Pays x session first) : Pays (x >>= f) session first := by
  have hran := h.ran
  have hfault := h.surfaces
  rw [hx] at hran hfault
  constructor
  · exact h.proper
  · rw [Step.run_bind_of_error hx]; exact hran
  · rw [Step.run_bind_of_error hx]; exact hfault.error

/-- What follows without touching the link pays no further visit. -/
theorem bind (h : Pays x session first) (hf : ∀ a later, ((f a).run later).2.store = later.store) :
    Pays (x >>= f) session first := by
  rcases hx : x.run session with ⟨e | a, later⟩
  · exact h.bind_of_error hx
  · rw [← List.append_nil first]
    exact h.bind_of_ok hx (of_store_eq (hf a later))

end Pays

/-! ## Requests -/

namespace Store

/-- What can be asked of a table. -/
inductive Request where
  | find (key : Value)
  | list (conditions : List Condition) (order : List Value) (offset limit : Value)
  | create (fields : Row)
  | update (key : Value) (fields : Row)

/-- Carries a request out and drops the answer. -/
def Request.run (s : Store) : Request → LinkStep Unit
  | .find key => do let _ ← s.access.findByKey key
  | .list conditions order offset limit => do
    let _ ← s.access.findAndCount conditions order offset limit
  | .create fields => do let _ ← s.access.create fields
  | .update key fields => do let _ ← s.access.updateByKey key fields

/-- Whether the first visit of a request commits. -/
def Request.Commits (s : Store) (l : Link) (j : Log.Journal) : Request → Prop
  | .find _ | .list _ _ _ _ => False
  | .create fields => s.Inserts fields l j
  | .update key fields => fields ≠ [] ∧ s.Updates key fields l j

def Request.isCreation : Request → Bool
  | .create _ => true
  | _ => false

/-- How a request is to use the driver. -/
structure Disciplined (s : Store) (request : Request) (session : Session Link)
    (visits : List Visit) : Prop where
  pays : Pays (request.run s) session visits
  first : (∃ v ∈ visits.head?, v.committed = true) ↔ request.Commits s session.store session.journal
  others : ∀ v ∈ visits.tail, v.committed = false
  atMost : visits.length ≤ 2
  twice : visits.length = 2 ↔
    request.isCreation = true ∧ request.Commits s session.store session.journal

variable {s : Store} {request : Request} {key : Value} {fields : Row}

theorem Disciplined.none (h : Pays (request.run s) session [])
    (hn : ¬request.Commits s session.store session.journal) : Disciplined s request session [] where
  pays := h
  first := by simp [hn]
  others := by simp
  atMost := by simp
  twice := by simp [hn]

theorem Disciplined.one {v : Visit} (h : Pays (request.run s) session [v])
    (hc : v.committed = true ↔ request.Commits s session.store session.journal)
    (hn : request.isCreation = true → ¬request.Commits s session.store session.journal) :
    Disciplined s request session [v] where
  pays := h
  first := by simpa using hc
  others := by simp
  atMost := by simp
  twice := by simpa using hn

/-! ## Reading -/

theorem find_pays {sql : String} (h : s.table.selectByKey (.text s.primaryKey) = .ok sql)
    (key : Value) (session : Session Link) :
    ∃ v, Pays (s.find key) session [v] ∧ v.committed = false := by
  have hbody : OnCursor (do
      LinkStep.execute ⟨sql, [("key", key)]⟩
      return (← LinkStep.fetchRecords).head?) :=
    (OnCursor.execute _).bind fun _ => OnCursor.fetchRecords.bind fun _ => OnCursor.pure _
  obtain ⟨v, hpays, hcommitted⟩ := Pays.unit hbody false session
  refine ⟨v, ?_, by simpa using hcommitted⟩
  unfold find
  rw [h]
  exact Pays.bind_of_ok (Step.run_ofResult _) (Pays.of_store_eq rfl) hpays

theorem find_disciplined (s : Store) (key : Value) (session : Session Link) :
    ∃ visits, Disciplined s (.find key) session visits := by
  cases h : s.table.selectByKey (.text s.primaryKey) with
  | error e =>
    refine ⟨[], .none ?_ id⟩
    refine Pays.bind (Pays.of_store_eq ?_) fun _ _ => rfl
    show ((s.find key).run session).2.store = _
    unfold find
    rw [h, Step.run_bind_of_error (Step.run_ofResult _)]
  | ok sql =>
    obtain ⟨v, hpays, hcommitted⟩ := find_pays h key session
    refine ⟨[v], .one (hpays.bind fun _ _ => rfl) ?_ nofun⟩
    rw [hcommitted]
    exact ⟨nofun, nofun⟩

theorem list_body_onCursor (counting selecting : Statement) : OnCursor (do
    LinkStep.execute counting
    let total ← Step.ofResult (countOf (← LinkStep.fetchOne))
    LinkStep.execute selecting
    return (total, ← LinkStep.fetchRecords)) := by
  refine (OnCursor.execute _).bind fun _ => OnCursor.fetchOne.bind fun _ => ?_
  refine (OnCursor.ofResult _).bind fun _ => (OnCursor.execute _).bind fun _ => ?_
  exact OnCursor.fetchRecords.bind fun _ => OnCursor.pure _

theorem list_disciplined (s : Store) (conditions : List Condition) (order : List Value)
    (offset limit : Value) (session : Session Link) :
    ∃ visits, Disciplined s (.list conditions order offset limit) session visits := by
  have hnone (h : ((s.list conditions order offset limit).run session).2.store = session.store) :
      ∃ visits, Disciplined s (.list conditions order offset limit) session visits :=
    ⟨[], .none (Pays.bind (Pays.of_store_eq h) fun _ _ => rfl) id⟩
  cases hc : s.table.count conditions with
  | error e =>
    apply hnone
    unfold list
    rw [hc, Step.run_bind_of_error (Step.run_ofResult _)]
  | ok counting =>
    cases hs : s.table.select conditions order limit offset with
    | error e =>
      apply hnone
      unfold list
      rw [hc, Step.run_bind_of_ok (Step.run_ofResult _), hs,
        Step.run_bind_of_error (Step.run_ofResult _)]
    | ok selecting =>
      obtain ⟨v, hpays, hcommitted⟩ :=
        Pays.unit (list_body_onCursor counting selecting) false session
      have hlist : Pays (s.list conditions order offset limit) session [v] := by
        unfold list
        rw [hc, hs]
        refine Pays.bind_of_ok (Step.run_ofResult _) (Pays.of_store_eq rfl) ?_
        exact Pays.bind_of_ok (Step.run_ofResult _) (Pays.of_store_eq rfl) hpays
      refine ⟨[v], .one (hlist.bind fun _ _ => rfl) ?_ nofun⟩
      rw [hcommitted]
      exact ⟨nofun, nofun⟩

/-! ## Writing -/

theorem update_disciplined (s : Store) (key : Value) (fields : Row) (session : Session Link) :
    ∃ visits, Disciplined s (.update key fields) session visits := by
  have hnone (h : ((s.update key fields).run session).2.store = session.store)
      (hn : ¬(fields ≠ [] ∧ s.Updates key fields session.store session.journal)) :
      ∃ visits, Disciplined s (.update key fields) session visits :=
    ⟨[], .none (Pays.bind (Pays.of_store_eq h) fun _ _ => rfl) hn⟩
  cases fields with
  | nil => exact hnone rfl fun h => h.1 rfl
  | cons field fields =>
    cases hu : s.table.update (.text s.primaryKey) key (field :: fields) with
    | error e =>
      refine hnone ?_ ?_
      · unfold update
        simp only [List.isEmpty_cons, Bool.false_eq_true, ↓reduceIte]
        rw [hu, Step.run_bind_of_error (Step.run_ofResult _)]
      · rintro ⟨_, h⟩
        obtain ⟨updating, heq, _⟩ := h.executed
        rw [hu] at heq
        cases heq
    | ok updating =>
      have hbody : OnCursor (do
          LinkStep.execute updating
          Step.look fun l => .ok l.current.rowCount) :=
        (OnCursor.execute _).bind fun _ => OnCursor.look _
      obtain ⟨v, hpays, hcommitted⟩ := Pays.unit hbody true session
      have hupdate : Pays (s.update key (field :: fields)) session [v] := by
        unfold update
        simp only [List.isEmpty_cons, Bool.false_eq_true, ↓reduceIte]
        rw [hu]
        refine Pays.bind_of_ok (Step.run_ofResult _) (Pays.of_store_eq rfl) ?_
        exact hpays.bind fun _ _ => rfl
      refine ⟨[v], .one (hupdate.bind fun _ _ => rfl) ?_ nofun⟩
      rw [hcommitted, Bool.true_and, updating_isOk_iff hu]
      exact ⟨fun h => ⟨nofun, h⟩, And.right⟩

theorem insertion_onCursor (s : Store) (key : Value) (inserting : Statement) :
    OnCursor (s.insertion key inserting) := by
  refine (OnCursor.look _).bind fun _ => (OnCursor.execute _).bind fun _ => ?_
  split
  · refine OnCursor.bind ?_ fun key => ?_
    · unfold generatedKey
      split
      · exact OnCursor.look _
      · refine (OnCursor.execute _).bind fun _ => OnCursor.fetchOne.bind fun _ => ?_
        split <;> exact OnCursor.pure _
    · split
      · exact (OnCursor.ofResult _).bind fun _ => OnCursor.pure _
      · exact OnCursor.pure _
  · exact OnCursor.pure _

theorem insert_pays (s : Store) (fields : Row) (session : Session Link) :
    (Pays (s.insert fields) session [] ∧ ¬s.Inserts fields session.store session.journal) ∨
      ∃ v, Pays (s.insert fields) session [v] ∧
        (v.committed = true ↔ s.Inserts fields session.store session.journal) := by
  cases hi : s.table.insert fields with
  | error e =>
    refine .inl ⟨Pays.of_store_eq ?_, ?_⟩
    · unfold insert
      rw [hi, Step.run_bind_of_error (Step.run_ofResult _)]
    · intro h
      obtain ⟨inserting, heq, _⟩ := h.executed
      rw [hi] at heq
      cases heq
  | ok inserting =>
    obtain ⟨v, hpays, hcommitted⟩ := Pays.unit
      (insertion_onCursor s (Value.field fields s.primaryKey) inserting) true session
    refine .inr ⟨v, ?_, ?_⟩
    · unfold insert
      rw [hi]
      exact Pays.bind_of_ok (Step.run_ofResult _) (Pays.of_store_eq rfl) hpays
    · rw [hcommitted, Bool.true_and, ← insert_isOk_iff (j := session.journal),
        run_insert_of_statement hi]

/-- Where a record could be inserted, the statement that reads it back can be made. -/
theorem selectByKey_of_insert {inserting : Statement} (hk : s.primaryKey ∈ s.table.columns)
    (h : s.table.insert fields = .ok inserting) :
    ∃ sql, s.table.selectByKey (.text s.primaryKey) = .ok sql := by
  obtain ⟨⟨names, params⟩, _, h⟩ := Result.bind_eq_ok.mp h
  obtain ⟨name, hname, _⟩ := Result.bind_eq_ok.mp h
  exact ⟨_, Table.selectByKey_of_mem hname hk⟩

/-- A creation that has inserted its record reads it back on a visit of its own. -/
theorem create_disciplined (hk : s.primaryKey ∈ s.table.columns) (fields : Row)
    (session : Session Link) : ∃ visits, Disciplined s (.create fields) session visits := by
  have hiff : ((s.insert fields).run session).1.isOk = true ↔
      s.Inserts fields session.store session.journal := insert_isOk_iff
  rcases hrun : (s.insert fields).run session with ⟨e | inserted, later⟩
  · -- the insertion is refused, and that is all
    have hno : ¬s.Inserts fields session.store session.journal := by
      rw [← hiff, hrun]
      exact Bool.false_ne_true
    rcases insert_pays s fields session with ⟨hpays, _⟩ | ⟨v, hpays, hcommitted⟩
    · refine ⟨[], .none (Pays.bind (Pays.bind_of_error hrun hpays) fun _ _ => rfl) hno⟩
    · refine ⟨[v], .one (Pays.bind (Pays.bind_of_error hrun hpays) fun _ _ => rfl) hcommitted ?_⟩
      exact fun _ => hno
  · have hyes : s.Inserts fields session.store session.journal := by
      rw [← hiff, hrun]
      rfl
    rcases insert_pays s fields session with ⟨_, hno⟩ | ⟨v, hpays, hcommitted⟩
    · exact absurd hyes hno
    · obtain ⟨inserting, hi, _⟩ := hyes.executed
      obtain ⟨sql, hsql⟩ := selectByKey_of_insert hk hi
      obtain ⟨w, hread, hquiet⟩ := find_pays hsql inserted later
      have hboth : Pays (s.create fields) session [v, w] := by
        refine Pays.bind_of_ok hrun hpays (hread.bind ?_)
        intro found after
        cases found <;> rfl
      refine ⟨[v, w], hboth.bind fun _ _ => rfl, ?_, ?_, ?_, ?_⟩
      · simpa [Request.Commits] using hcommitted
      · simpa using hquiet
      · simp
      · simp [Request.isCreation, Request.Commits, hyes]

/-- **How a table is visited.** Whatever is asked of a table that has its key among its columns, and
whatever its driver does, the calls of the driver are those of at most two visits. Only the first
can commit, and does if and only if it is that of a creation or of an update with fields, all of its
steps succeed, and a creation has its key. A fault of the driver is the last call that can fail and
is what the request is refused with. -/
theorem request_disciplined (s : Store) (hk : s.primaryKey ∈ s.table.columns) (request : Request)
    (l : Link) (j : Log.Journal) : ∃ visits, Disciplined s request ⟨l, j⟩ visits := by
  cases request with
  | find key => exact find_disciplined s key ⟨l, j⟩
  | list conditions order offset limit =>
    exact list_disciplined s conditions order offset limit ⟨l, j⟩
  | create fields => exact create_disciplined hk fields ⟨l, j⟩
  | update key fields => exact update_disciplined s key fields ⟨l, j⟩

/-- A record is inserted under the key that the cursor reports, and reading it back fails. -/
theorem creation_committed_before_fault :
    let s : Store := ⟨⟨.text "tag", ["id", "label"]⟩, "id", none⟩
    let l : Link := { outcomes := [{ lastKey := .int 7 }, { error := some "locked" }] }
    let request := Request.create [(.text "label", .text "red")]
    s.primaryKey ∈ s.table.columns ∧
      ((request.run s).run ⟨l, {}⟩).2.store.calls.length = 11 ∧
      (∃ visits, Disciplined s request ⟨l, {}⟩ visits ∧ visits.length = 2) := by
  intro s l request
  have hk : s.primaryKey ∈ s.table.columns := by decide
  obtain ⟨visits, h⟩ := request_disciplined s hk request l {}
  have hcommits : request.Commits s l {} := insert_isOk_iff.mp (by decide +kernel)
  exact ⟨hk, by decide +kernel, visits, h, h.twice.mpr ⟨rfl, hcommits⟩⟩

end Store

end EntityApi.Sql
