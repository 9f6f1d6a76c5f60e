import EntityApi.Proofs.Results
import EntityApi.Proofs.Sql.Visits

/-! # When a visit commits

An operation of a table pays at most two visits, and only the first of them, for
a creation or an update, can commit. Whether it does is settled by what the
driver does: every execution of that visit must succeed, must be reported to the
journal, and where a key has to be generated one must be read back
(`Store.Inserts`, `Store.Updates`). -/
namespace EntityApi

namespace Sql

variable {session later : Session Link}

/-- The records that an execution finds. -/
def Outcome.records (o : Outcome) : Result (List Row) :=
  o.rows.mapM (LinkStep.recordOf (o.columns.getD []))

namespace Link

/-- The outcome that the coming execution will have, after `n` others. -/
def outcome (l : Link) (n : Nat) : Outcome := (l.outcomes.drop n).headD {}

/-- The coming execution, after `n` others, succeeds and can be reported. -/
def Executes (l : Link) (j : Log.Journal) (n : Nat) (s : Statement) : Prop :=
  (l.outcome n).error = none ∧ (j.record (LinkStep.sent s)).isOk = true

/-- The link after an execution that succeeded. -/
def executed (l : Link) (s : Statement) : Link :=
  { l.note (.execute s.sql s.params) with outcomes := l.outcomes.drop 1, current := l.outcome 0 }

/-- The link after an execution that failed. -/
def failed (l : Link) (s : Statement) : Link :=
  { l.note (.execute s.sql s.params) with outcomes := l.outcomes.drop 1 }

/-- The link after a row was fetched. -/
def fetched (l : Link) : Link :=
  { l.note .fetchOne with current := { l.current with rows := l.current.rows.drop 1 } }

/-- The link after all rows were fetched. -/
def drained (l : Link) : Link :=
  { l.note .fetchAll with current := { l.current with rows := [] } }

theorem ran_executed (l : Link) (st : Statement) :
    Ran l [.execute st.sql st.params] (l.executed st) := ⟨rfl, rfl, rfl⟩

theorem ran_failed (l : Link) (st : Statement) :
    Ran l [.execute st.sql st.params] (l.failed st) := ⟨rfl, rfl, rfl⟩

theorem ran_fetched (l : Link) : Ran l [.fetchOne] l.fetched := ⟨rfl, rfl, rfl⟩

theorem ran_drained (l : Link) : Ran l [.fetchAll] l.drained := ⟨rfl, rfl, rfl⟩

end Link

theorem run_send_of_ok {s : Statement} (h : (session.store.outcome 0).error = none) :
    (LinkStep.send s).run session =
      (.ok (), { session with store := session.store.executed s }) := by
  unfold LinkStep.send Step.run ExceptT.run
  change (session.store.outcomes.headD {}).error = none at h
  dsimp only [Link.note]
  rw [h]
  rfl

theorem run_send_of_fault {s : Statement} {text : String}
    (h : (session.store.outcome 0).error = some text) :
    (LinkStep.send s).run session =
      (.error (.driver text), { session with store := session.store.failed s }) := by
  unfold LinkStep.send Step.run ExceptT.run
  change (session.store.outcomes.headD {}).error = some text at h
  dsimp only [Link.note]
  rw [h]
  rfl

theorem execute_eq_ok_iff {s : Statement} :
    (LinkStep.execute s).run session = (.ok (), later) ↔
      (session.store.outcome 0).error = none ∧ ∃ journal,
        session.journal.record (LinkStep.sent s) = .ok journal ∧
          later = ⟨session.store.executed s, journal⟩ := by
  unfold LinkStep.execute
  cases hf : (session.store.outcome 0).error with
  | some text =>
    rw [Step.run_bind_of_error (run_send_of_fault hf)]
    simp
  | none =>
    rw [Step.run_bind_of_ok (run_send_of_ok hf)]
    cases hr : session.journal.record (LinkStep.sent s) with
    | error f =>
      rw [Step.run_log_of_error (by exact hr)]
      simp
    | ok journal =>
      rw [Step.run_log_of_ok (by exact hr)]
      simp [eq_comm]

theorem execute_isOk_iff {s : Statement} :
    ((LinkStep.execute s).run session).1.isOk = true ↔
      session.store.Executes session.journal 0 s := by
  constructor
  · intro h
    obtain ⟨⟨⟩, hx⟩ := Result.exists_of_isOk h
    obtain ⟨hf, journal, hr, _⟩ := execute_eq_ok_iff.mp (Prod.ext hx rfl)
    exact ⟨hf, by rw [hr]; rfl⟩
  · rintro ⟨hf, hr⟩
    obtain ⟨journal, hr⟩ := Result.exists_of_isOk hr
    rw [execute_eq_ok_iff.mpr ⟨hf, journal, hr, rfl⟩]
    rfl

theorem run_fetchOne : LinkStep.fetchOne.run session =
    (.ok session.store.current.rows.head?, { session with store := session.store.fetched }) := by
  rcases session with ⟨⟨_, _, _, ⟨_, rows, _, _, _⟩, _⟩, _⟩
  cases rows <;> rfl

theorem run_fetchRecords : LinkStep.fetchRecords.run session =
    (session.store.current.records, { session with store := session.store.drained }) := rfl

/-- An execution in the middle of a step that succeeds. -/
theorem execute_bind_isOk {α : Type} {s : Statement} {f : Unit → LinkStep α} :
    ((LinkStep.execute s >>= f).run session).1.isOk = true ↔
      (session.store.outcome 0).error = none ∧ ∃ journal,
        session.journal.record (LinkStep.sent s) = .ok journal ∧
          ((f ()).run ⟨session.store.executed s, journal⟩).1.isOk = true := by
  rw [Step.run_bind_isOk]
  constructor
  · rintro ⟨⟨⟩, later, hx, hok⟩
    obtain ⟨hf, journal, hr, rfl⟩ := execute_eq_ok_iff.mp hx
    exact ⟨hf, journal, hr, hok⟩
  · rintro ⟨hf, journal, hr, hok⟩
    exact ⟨(), _, execute_eq_ok_iff.mpr ⟨hf, journal, hr, rfl⟩, hok⟩

/-! ## The conditions of a commit -/

namespace Store

/-- The first value of the first row, or null. -/
def firstValue : List (List Value) → Value
  | (v :: _) :: _ => v
  | _ => .null

/-- The key of a new record is there, or can be asked for once the record is inserted. -/
def CanTell (s : Store) (key : Value) (l : Link) : Prop :=
  key.isNull = true → s.keyQuery? = none → l.reportsKeys = true

/-- After the insertion a key is read back: from the cursor, or by the key query. -/
def Generates (s : Store) (l : Link) (j : Log.Journal) : Prop :=
  match s.keyQuery? with
  | none => l.reportsKeys = true ∧ (l.outcome 0).lastKey.isNull = false
  | some query => l.Executes j 1 ⟨query, []⟩ ∧ (firstValue (l.outcome 1).rows).isNull = false

/-- Every step of the visit that inserts a record succeeds. -/
structure Inserts (s : Store) (fields : Row) (l : Link) (j : Log.Journal) : Prop where
  connected : l.connects.headD none = none
  executed : ∃ inserting, s.table.insert fields = .ok inserting ∧ l.Executes j 0 inserting
  keyed : (Value.field fields s.primaryKey).isNull = true → s.Generates l j

/-- Every step of the visit that updates a record succeeds. -/
structure Updates (s : Store) (key : Value) (fields : Row) (l : Link) (j : Log.Journal) : Prop where
  connected : l.connects.headD none = none
  executed : ∃ updating, s.table.update (.text s.primaryKey) key fields = .ok updating ∧
    l.Executes j 0 updating

end Store

/-! ## The visits that may commit -/

theorem unit_isOk_iff {α : Type} {commits : Bool} {body : LinkStep α} :
    ((LinkStep.unit commits body).run session).1.isOk = true ↔
      session.store.connects.headD none = none ∧
        (body.run { session with store := session.store.opened }).1.isOk = true := by
  cases h : session.store.connects.headD none with
  | some text =>
    rw [run_unit_of_refused h]
    simp [Except.isOk, Except.toBool]
  | none =>
    rw [run_unit_of_connected h]
    simp

namespace Store

variable {s : Store} {fields : Row} {key : Value} {l : Link} {j : Log.Journal}

/-- The first row that is fetched tells the key. -/
theorem run_fetchKey {f : Option (List Value) → LinkStep Value}
    (hsome : ∀ v row, f (some (v :: row)) = pure v) (hempty : f (some []) = pure .null)
    (hnone : f none = pure .null) : (LinkStep.fetchOne >>= f).run session =
      (.ok (firstValue session.store.current.rows),
        { session with store := session.store.fetched }) := by
  rw [Step.run_bind_of_ok run_fetchOne]
  rcases session.store.current.rows with _ | ⟨_ | ⟨v, row⟩, rows⟩
  · rw [List.head?_nil, hnone]
    rfl
  · rw [List.head?_cons, hempty]
    rfl
  · rw [List.head?_cons, hsome]
    rfl

/-- A generated key is read from the cursor, or is the first value that the key query finds. -/
theorem generatedKey_eq_ok_iff {v : Value} : (s.generatedKey.run session).1 = .ok v ↔
    match s.keyQuery? with
    | none => v = session.store.current.lastKey
    | some query => session.store.Executes session.journal 0 ⟨query, []⟩ ∧
        v = firstValue (session.store.outcome 0).rows := by
  unfold generatedKey
  cases s.keyQuery? with
  | none => simp [eq_comm]
  | some query =>
    dsimp only
    have hexec : ((LinkStep.execute ⟨query, []⟩).run session).1.isOk = true ↔
        session.store.Executes session.journal 0 ⟨query, []⟩ := execute_isOk_iff
    rcases hx : (LinkStep.execute ⟨query, []⟩).run session with ⟨e | ⟨⟩, later⟩
    · rw [Step.run_bind_of_error hx]
      rw [hx] at hexec
      simp [← hexec, Except.isOk, Except.toBool]
    · obtain ⟨_, journal, _, rfl⟩ := execute_eq_ok_iff.mp hx
      rw [Step.run_bind_of_ok hx, run_fetchKey (fun _ _ => rfl) rfl rfl]
      rw [hx] at hexec
      simp only [hexec.mp rfl, true_and]
      exact ⟨fun h => (Except.ok.inj h).symm, fun h => congrArg _ h.symm⟩

theorem run_checkKeys_of_canTell (h : s.CanTell key session.store) :
    (s.checkKeys key).run session = (.ok (), session) := by
  unfold checkKeys
  rw [Step.run_look, if_neg]
  simpa [CanTell] using h

theorem run_checkKeys_of_not_canTell (h : ¬s.CanTell key session.store) :
    (s.checkKeys key).run session =
      (do refuse (.outage (.keysNotReported (← s.table.name.text?))), session) := by
  unfold checkKeys
  rw [Step.run_look, if_pos]
  simpa [CanTell, and_assoc] using h

theorem checkKeys_bind_isOk {α : Type} {f : Unit → LinkStep α} :
    ((s.checkKeys key >>= f).run session).1.isOk = true ↔
      s.CanTell key session.store ∧ ((f ()).run session).1.isOk = true := by
  by_cases h : s.CanTell key session.store
  · rw [Step.run_bind_of_ok (run_checkKeys_of_canTell h)]
    simp only [h, true_and]
  · rw [Step.run_bind, run_checkKeys_of_not_canTell h]
    simp only [h, false_and, iff_false]
    cases s.table.name.text? <;> exact Bool.false_ne_true

/-- A step that is refused if it gives null succeeds exactly if it gives something else. -/
theorem unless_null_isOk_iff {x : LinkStep Value} {r : Result Unit} (hr : r.isOk = false) :
    ((x >>= fun v => if v.isNull = true then Step.ofResult r >>= fun _ => pure v else pure v).run
        session).1.isOk = true ↔ ∃ v, (x.run session).1 = .ok v ∧ v.isNull = false := by
  rw [Step.run_bind_isOk]
  constructor
  · rintro ⟨v, later, hx, hok⟩
    refine ⟨v, congrArg Prod.fst hx, ?_⟩
    cases hv : v.isNull with
    | false => rfl
    | true =>
      simp only [hv, ↓reduceIte, Step.run_bind_isOk, Step.run_ofResult] at hok
      obtain ⟨_, _, heq, _⟩ := hok
      have hok : r = .ok _ := congrArg Prod.fst heq
      rw [hok] at hr
      cases hr
  · rintro ⟨v, hx, hv⟩
    refine ⟨v, _, Prod.ext hx rfl, ?_⟩
    simp only [hv, Bool.false_eq_true, ↓reduceIte]
    rfl

/-- After an insertion the key query is run on the rest of the script. -/
theorem generates_iff {st : Statement} {journal : Log.Journal}
    (hj : j.record (LinkStep.sent st) = .ok journal) :
    (∃ v, (s.generatedKey.run ⟨l.opened.executed st, journal⟩).1 = .ok v ∧ v.isNull = false) ∧
        (s.keyQuery? = none → l.reportsKeys = true) ↔ s.Generates l j := by
  simp only [generatedKey_eq_ok_iff]
  unfold Generates Link.Executes
  cases s.keyQuery? with
  | none =>
    simp only [exists_eq_left, forall_const]
    exact and_comm
  | some query =>
    have hrecord := Log.Journal.record_isOk_of_record hj (LinkStep.sent ⟨query, []⟩)
    simp only [hrecord, reduceCtorEq, false_imp_iff, and_true]
    constructor
    · rintro ⟨v, ⟨hexec, rfl⟩, hv⟩
      exact ⟨hexec, hv⟩
    · rintro ⟨hexec, hv⟩
      exact ⟨_, ⟨hexec, rfl⟩, hv⟩

/-- What is done on the cursor of an insertion. -/
def insertion (s : Store) (key : Value) (inserting : Statement) : LinkStep Value := do
  checkKeys s key
  LinkStep.execute inserting
  if key.isNull then
    let key ← generatedKey s
    if key.isNull then
      Step.ofResult do refuse (.outage (.noKeyReported (← s.table.name.text?)))
    return key
  else return key

theorem run_insert_of_statement {inserting : Statement}
    (h : s.table.insert fields = .ok inserting) : (s.insert fields).run session =
      (LinkStep.unit true (s.insertion (Value.field fields s.primaryKey) inserting)).run
        session := by
  unfold insert
  rw [h, Step.run_bind_of_ok (Step.run_ofResult _)]
  rfl

/-- The insertion succeeds exactly if every step of its visit does. -/
theorem insert_isOk_iff :
    ((s.insert fields).run ⟨l, j⟩).1.isOk = true ↔ s.Inserts fields l j := by
  have hrefused : (do refuse (.outage (.noKeyReported (← s.table.name.text?))) : Result Unit).isOk =
      false := by
    cases s.table.name.text? <;> rfl
  cases hins : s.table.insert fields with
  | error e =>
    unfold insert
    rw [hins, Step.run_bind_of_error (Step.run_ofResult _)]
    constructor
    · intro h; cases h
    · intro h
      obtain ⟨inserting, heq, _⟩ := h.executed
      rw [hins] at heq
      cases heq
  | ok inserting =>
    rw [run_insert_of_statement hins, unit_isOk_iff]
    unfold insertion
    rw [checkKeys_bind_isOk, execute_bind_isOk]
    constructor
    · rintro ⟨hc, hr, hf, journal, hj, hrest⟩
      refine ⟨hc, ⟨inserting, hins, hf, by rw [hj]; rfl⟩, fun hk => ?_⟩
      simp only [hk, ↓reduceIte] at hrest
      exact (generates_iff hj).mp ⟨(unless_null_isOk_iff hrefused).mp hrest, hr hk⟩
    · intro h
      obtain ⟨st, heq, hf, hj⟩ := h.executed
      obtain rfl : inserting = st := Except.ok.inj (hins.symm.trans heq)
      obtain ⟨journal, hj⟩ := Result.exists_of_isOk hj
      cases hk : (Value.field fields s.primaryKey).isNull with
      | false =>
        have hr : s.CanTell (Value.field fields s.primaryKey) l := fun hnull => by
          rw [hk] at hnull
          cases hnull
        refine ⟨h.connected, hr, hf, journal, hj, ?_⟩
        simp only [Bool.false_eq_true, ↓reduceIte]
        rfl
      | true =>
        obtain ⟨hv, hr⟩ := (generates_iff hj).mpr (h.keyed hk)
        refine ⟨h.connected, fun _ => hr, hf, journal, hj, ?_⟩
        simp only [↓reduceIte]
        exact (unless_null_isOk_iff hrefused).mpr hv

/-- The part of an update that pays a visit succeeds exactly if every step of that visit does. -/
theorem updating_isOk_iff {updating : Statement}
    (h : s.table.update (.text s.primaryKey) key fields = .ok updating) :
    ((LinkStep.unit true do
        LinkStep.execute updating
        Step.look fun l => .ok l.current.rowCount).run ⟨l, j⟩).1.isOk = true ↔
      s.Updates key fields l j := by
  rw [unit_isOk_iff, execute_bind_isOk]
  constructor
  · rintro ⟨hc, hf, journal, hj, _⟩
    exact ⟨hc, updating, h, hf, by rw [hj]; rfl⟩
  · intro hu
    obtain ⟨st, heq, hf, hj⟩ := hu.executed
    obtain rfl : updating = st := Except.ok.inj (h.symm.trans heq)
    obtain ⟨journal, hj⟩ := Result.exists_of_isOk hj
    exact ⟨hu.connected, hf, journal, hj, rfl⟩

end Store

end Sql

end EntityApi
