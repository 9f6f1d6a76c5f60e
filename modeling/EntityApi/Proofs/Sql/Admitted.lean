import EntityApi.Proofs.Calls
import EntityApi.Proofs.Sql.Bindings
import EntityApi.Proofs.Sql.Creations
import EntityApi.Proofs.Sql.Sparing
import EntityApi.Warehouse

/-! # What admitted calls execute

The fields of an entity are the columns of its table and the arguments of its
operations, so no argument that a signature offers is a column that the table does not
have, and an update that has nothing to write is not made into a statement. What is
left to refuse is an update without a key (`fault_of_refused`). A driver of which no
call fails (`Link.Willing`) then gets to execute what the operation and the arguments
say and nothing else (`Executes`). -/
namespace EntityApi

namespace Sql

/-! ## Drivers of which no call fails -/

/-- The statements that are executed in the course of some calls. -/
def executions : List Call → List Statement
  | [] => []
  | .execute sql params :: calls => ⟨sql, params⟩ :: executions calls
  | _ :: calls => executions calls

theorem executions_append (first second : List Call) :
    executions (first ++ second) = executions first ++ executions second := by
  induction first with
  | nil => rfl
  | cons c first ih => cases c <;> simp [executions, ih]

@[simp] theorem executions_done (steps : List Call) (committed : Bool) :
    executions (Visit.done steps committed).calls = executions steps := by
  cases committed <;> simp [Visit.calls, executions, executions_append]

namespace Link

/-- No coming call fails, and rows that were changed are counted by a number, if at all. -/
structure Willing (l : Link) : Prop where
  connects : ∀ fault ∈ l.connects, fault = none
  outcomes : ∀ o ∈ l.outcomes, o.error = none ∧ (o.rowCount = .null ∨ ∃ n, o.rowCount = .int n)

namespace Willing

variable {l m : Link} (h : Willing l)

include h

theorem connected : l.connects.headD none = none := by
  cases hc : l.connects with
  | nil => rfl
  | cons fault rest => exact h.connects fault (hc ▸ List.mem_cons_self)

theorem outcome (n : Nat) : (l.outcome n).error = none ∧
    ((l.outcome n).rowCount = .null ∨ ∃ k, (l.outcome n).rowCount = .int k) := by
  unfold Link.outcome
  cases hd : l.outcomes.drop n with
  | nil => exact ⟨rfl, .inr ⟨-1, rfl⟩⟩
  | cons o rest => exact h.outcomes o (List.mem_of_mem_drop (hd ▸ List.mem_cons_self))

theorem later {calls : List Call} (hran : Ran l calls m) : Willing m where
  connects fault hfault := h.connects fault (List.mem_of_mem_drop (hran.connects ▸ hfault))
  outcomes o ho := h.outcomes o (List.mem_of_mem_drop (hran.outcomes ▸ ho))

/-- An execution is in vain only if it cannot be reported. -/
theorem record_of_fails {j : Log.Journal} {n : Nat} {st : Statement} {e : Failure}
    (hf : l.Fails j n st e) : j.record (LinkStep.sent st) = .error e := by
  cases hf with
  | driver hfault =>
    rw [(h.outcome n).1] at hfault
    cases hfault
  | report _ hj => exact hj

end Willing

end Link

/-! ## Requests to the table -/

namespace Store

variable {s : Store} {fields : Row} {st looking : Statement} {key : Value} {l : Link}
  {j : Log.Journal}

theorem executions_find (ht : Shows s.table.name) (hk : s.primaryKey ∈ s.table.columns)
    (hl : l.Willing) (key : Value) (j : Log.Journal) : ∃ made looking,
      Ran l made ((s.find key).run ⟨l, j⟩).2.store ∧ s.LooksUp key looking ∧
        executions made = [looking] := by
  obtain ⟨visits, found, later, hrun, hfinding, hran⟩ := run_find ht key l j
  rw [hrun]
  cases hfinding with
  | noColumn hno => exact absurd hk hno
  | unconnected _ hc =>
    rw [hl.connected] at hc
    cases hc
  | failed _ hlooks | answered _ hlooks => exact ⟨_, _, hran, hlooks, rfl⟩

theorem Tells.executions {steps : List Call} {r : Result Value}
    (h : s.Tells fields l j steps r) : ∃ asked : List String, asked.Sublist s.keyQuery?.toList ∧
      executions steps = asked.map (⟨·, []⟩) := by
  cases h with
  | given | cursor => exact ⟨[], List.nil_sublist _, rfl⟩
  | query _ hq | noAnswer _ hq => exact ⟨[_], by rw [hq]; exact List.Sublist.refl _, rfl⟩

theorem Inserting.executions {visit : Visit} {r : Result Value}
    (h : s.Inserting fields st l j visit r) (hl : l.Willing) :
    (¬s.CanTell (Value.field fields s.primaryKey) l ∧ r.isOk = false ∧
      executions visit.calls = []) ∨
    (s.CanTell (Value.field fields s.primaryKey) l ∧
      ∃ asked : List String, asked.Sublist s.keyQuery?.toList ∧
        executions visit.calls = st :: asked.map (⟨·, []⟩)) := by
  cases h with
  | unconnected hc =>
    rw [hl.connected] at hc
    cases hc
  | untellable _ hr => exact .inl ⟨hr, rfl, rfl⟩
  | failed _ hr => exact .inr ⟨hr, [], List.nil_sublist _, rfl⟩
  | untold _ hr _ htells | keyless _ hr _ htells | keyed _ hr _ htells =>
    obtain ⟨asked, hasked, hsteps⟩ := htells.executions
    refine .inr ⟨hr, asked, hasked, ?_⟩
    rw [executions_done, ← hsteps]
    rfl

/-- A creation inserts the record by one statement; all that may follow are questions. -/
theorem executions_create (ht : Shows s.table.name) (hk : s.primaryKey ∈ s.table.columns)
    (hst : s.table.insert fields = .ok st) (hl : l.Willing) (j : Log.Journal) : ∃ made : List Call,
      Ran l made ((s.create fields).run ⟨l, j⟩).2.store ∧
        ((¬s.CanTell (Value.field fields s.primaryKey) l ∧ executions made = []) ∨
          (s.CanTell (Value.field fields s.primaryKey) l ∧
            ∃ (asked : List String) (looking : Option Statement),
              asked.Sublist s.keyQuery?.toList ∧ (∀ look ∈ looking, ∃ key, s.LooksUp key look) ∧
                executions made = st :: (asked.map (⟨·, []⟩) ++ looking.toList))) := by
  obtain ⟨visit, r, mid, hrun, hinserting, hran⟩ := run_insert ht hst l j
  cases r with
  | error e =>
    have hcreate : (s.create fields).run ⟨l, j⟩ = (.error e, mid) := Step.run_bind_of_error hrun
    rw [hcreate]
    rcases hinserting.executions hl with ⟨hr, _, hvisit⟩ | ⟨hr, asked, hasked, hvisit⟩
    · exact ⟨_, hran, .inl ⟨hr, hvisit⟩⟩
    · exact ⟨_, hran, .inr ⟨hr, asked, none, hasked, nofun, by simp [hvisit]⟩⟩
  | ok key =>
    rcases hinserting.executions hl with ⟨_, ⟨⟩, _⟩ | ⟨hr, asked, hasked, hvisit⟩
    obtain ⟨made, looking, hmore, hlooks, hfound⟩ :=
      executions_find ht hk (hl.later hran) key mid.journal
    rw [run_create_of_key hrun rfl]
    refine ⟨_, hran.trans hmore, .inr ⟨hr, asked, some looking, hasked, ?_, ?_⟩⟩
    · rintro _ ⟨⟩
      exact ⟨key, hlooks⟩
    · rw [executions_append, hvisit, hfound]
      rfl

/-- Fields for columns of the table make a statement, if there are any. -/
theorem exists_update {t : Table} {column : String} (ht : Shows t.name)
    (hf : ∀ name ∈ Entries.keys fields, ∃ c ∈ t.columns, name = .text c) (hne : fields ≠ [])
    (hk : column ∈ t.columns) (key : Value) :
    ∃ updating, t.update (.text column) key fields = .ok updating := by
  obtain ⟨table, htable⟩ := ht
  obtain ⟨make, hmake⟩ := update_eq_map hf hne hk key
  exact ⟨make table, by rw [hmake, htable]; rfl⟩

theorem affected_isOk {rowCount : Value} (h : rowCount = .null ∨ ∃ n, rowCount = .int n) :
    (affected rowCount).isOk = true := by
  rcases h with rfl | ⟨n, rfl⟩
  · rfl
  · have hbefore : ∃ counted, Value.before false (.int 0) (.int n) = .ok counted := ⟨_, rfl⟩
    obtain ⟨counted, hcounted⟩ := hbefore
    unfold affected
    rw [hcounted]
    cases counted <;> rfl

/-- A record is updated by one statement. The update fails after it just if that cannot be reported. -/
theorem executions_update (hst : s.table.update (.text s.primaryKey) key fields = .ok st)
    (hne : fields ≠ []) (hl : l.Willing) (j : Log.Journal) : ∃ made r later,
      (s.update key fields).run ⟨l, j⟩ = (r, later) ∧ Ran l made later.store ∧
        executions made = [st] ∧ r.isOk = (j.record (LinkStep.sent st)).isOk := by
  have hsome : fields.isEmpty = false := List.isEmpty_eq_false_iff.mpr hne
  unfold update
  simp only [hsome, Bool.false_eq_true, ↓reduceIte]
  rw [hst, Step.run_bind_of_ok (Step.run_ofResult _)]
  rcases run_execute st l.opened j with ⟨k, hx, hj, _⟩ | ⟨e, later, hx, hfails, hran⟩
  · have hbody : Step.run (do
        LinkStep.execute st
        Step.look fun l => .ok l.current.rowCount) ⟨l.opened, j⟩ =
          (.ok (l.outcome 0).rowCount, ⟨l.opened.executed st, k⟩) := Step.run_bind_of_ok hx
    obtain ⟨hunit, hran⟩ := run_unit_of_body true hl.connected hbody (l.opened.ran_executed st)
    rw [Step.run_bind_of_ok hunit]
    refine ⟨_, _, _, rfl, hran, rfl, ?_⟩
    rw [hj]
    exact affected_isOk (hl.outcome 0).2
  · have hfails : l.Fails j 0 st e := hfails.transfer rfl (.refl j)
    have hbody := Step.run_bind_of_error (f := fun _ =>
      Step.look fun l => .ok l.current.rowCount) hx
    obtain ⟨hunit, hran⟩ := run_unit_of_body true hl.connected hbody hran
    rw [Step.run_bind_of_error hunit]
    refine ⟨_, _, _, rfl, hran, rfl, ?_⟩
    rw [hl.record_of_fails hfails]
    rfl

end Store

end Sql

namespace Resolver

open Sql (Shows Statement Link LinkStep executions insertSigns updateSigns)

/-- Arguments by their names. -/
def named (given : List (String × Value)) : Row := given.map (Prod.map .text id)

section

variable {e : Entity} {m : Model} {op : Operation} {args : Row}

theorem isText_named (given : List (String × Value)) : ∀ entry ∈ named given, entry.1.isText = true :=
  List.forall_mem_map.mpr fun _ _ => rfl

theorem remove_named (given : List (String × Value)) (key : String) :
    Entries.remove (named given) (.text key) = named (given.filter (·.1 != key)) := by
  rw [Entries.remove, named, List.filter_map]
  refine congrArg named (List.filter_congr fun field _ => ?_)
  simp [bne]

theorem keys_remove {columns : List String} {name : Value}
    (hf : ∀ name ∈ Entries.keys args, ∃ c ∈ columns, name = .text c) :
    ∀ other ∈ Entries.keys (Entries.remove args name), ∃ c ∈ columns, other = .text c := by
  intro other hother
  obtain ⟨entry, hentry, rfl⟩ := List.mem_map.mp hother
  exact hf _ (Entries.mem_keys_of_mem (List.mem_of_mem_filter hentry))

/-- What a signature offers are columns of the table. -/
theorem Offered.mem_fieldNames (h : Offered m op args) (hm : Model.Describes e m)
    (hop : op ≠ .readMultiple) : ∀ name ∈ Entries.keys args, ∃ c ∈ m.fieldNames, name = .text c := by
  intro name hname
  obtain ⟨entry, hentry, rfl⟩ := List.mem_map.mp hname
  obtain ⟨a, ha, hname⟩ := h entry hentry
  refine ⟨a.name, ?_, hname⟩
  cases op with
  | readMultiple => exact absurd rfl hop
  | read =>
    obtain rfl := List.mem_singleton.mp ha
    exact List.mem_map_of_mem hm.primaryKey_mem
  | create =>
    obtain ⟨f, hf, rfl⟩ := List.mem_map.mp ha
    exact List.mem_map_of_mem (List.mem_filter.mp (hm.createFields ▸ hf)).1
  | update =>
    obtain ⟨f, hf, rfl⟩ := List.mem_map.mp ha
    exact List.mem_map_of_mem hf

end

/-- The columns of a store are the fields of its model. -/
theorem store_eq_ok {e : Entity} {m : Model} {w : Warehouse} {s : Sql.Store}
    (h : w.store e m = .ok s) :
    s.table = ⟨e.tableName, m.fieldNames⟩ ∧ s.primaryKey = m.primaryKey.name := by
  obtain ⟨query, _, h⟩ := Result.bind_eq_ok.mp h
  cases h
  exact ⟨rfl, rfl⟩

/-! ## Refusals -/

section

variable {s : Sql.Store} {m : Model} {op : Operation} {args : Row} {largest : Value}
  {session : Session Link} {fault : ArgumentFault}

theorem notFound_spares {α : Type} (m : Model) (key : Value) :
    Sql.Spares (notFound m key : Result α) := by
  refine .bind (.of_fits (Value.shown?_fits key)) fun _ _ => ?_
  rintro ⟨_, ⟨⟩⟩

theorem checkNames_spares (htexts : ∀ entry ∈ args, entry.1.isText = true) :
    Sql.Spares (checkNames args) := by
  by_cases h : Unreserved args
  · rw [checkNames_of_unreserved htexts h]
    exact .ok ()
  · rw [checkNames_of_reserved htexts h]
    exact .mishap _ _

variable (hk : s.primaryKey ∈ s.table.columns)

include hk

theorem readByKey_spares (m : Model) (key : Value) : Step.Spares (readByKey s.access m key) := by
  refine .bind (Sql.Store.find_spares hk key) fun found => ?_
  cases found with
  | some record => exact .pure _
  | none => exact .ofResult (notFound_spares m key)

variable (hf : ∀ name ∈ Entries.keys args, ∃ c ∈ s.table.columns, name = .text c)
  (htexts : ∀ entry ∈ args, entry.1.isText = true)

include hf htexts

theorem update_spares (hkey : (Value.field args m.primaryKey.name).isNull = false) :
    Step.Spares (update s.access m args) := by
  refine .bind (.ofResult (checkNames_spares htexts)) fun _ => ?_
  simp only [hkey, Bool.false_eq_true, ↓reduceIte]
  exact .bind (Sql.Store.update_spares hk (keys_remove hf) _) fun _ => readByKey_spares hk m _

/-- The one argument that is refused is a key that is not there. -/
theorem fault_of_refused (hop : op ≠ .readMultiple)
    (h : ((run s.access m largest op args).run session).1 = .error (.invalidArgument fault)) :
    op = .update ∧ (Value.field args m.primaryKey.name).isNull = true ∧
      fault = .noKey m.name m.primaryKey.name := by
  have hchecked := checkNames_spares htexts
  cases op with
  | readMultiple => exact absurd rfl hop
  | read =>
    have hread : Step.Spares (read s.access m args) :=
      .bind (.ofResult hchecked) fun _ => readByKey_spares hk m _
    exact absurd ⟨fault, h⟩ (hread session)
  | create =>
    have hcreate : Step.Spares (create s.access args) :=
      .bind (.ofResult hchecked) fun _ => .bind (Sql.Store.create_spares hk hf) fun _ => .pure _
    exact absurd ⟨fault, h⟩ (hcreate session)
  | update =>
    cases hkey : (Value.field args m.primaryKey.name).isNull with
    | false => exact absurd ⟨fault, h⟩ (update_spares hk hf htexts hkey session)
    | true =>
      -- names are checked first, so that only a call that is bound gets as far as its key
      by_cases hfree : Unreserved args
      · have hrun : (run s.access m largest .update args).run session = _ :=
          run_update_without_key (checkNames_of_unreserved htexts hfree) hkey
        rw [hrun] at h
        cases h
        exact ⟨rfl, rfl, rfl⟩
      · rw [run_of_checkNames_error (checkNames_of_reserved htexts hfree) hop] at h
        cases h

end

/-! ## Executions -/

section

variable {s : Sql.Store} {m : Model} {op : Operation} {given : List (String × Value)}
  {largest : Value} {session : Session Link}

/-- The statement inserts a record of just these arguments, in order. -/
structure InsertsJust (s : Sql.Store) (given : List (String × Value))
    (inserting : Statement) : Prop where
  made : s.table.insert (named given) = .ok inserting
  reads : ∃ table, s.table.name.text? = .ok table ∧ inserting.ClosedAs (insertSigns table given)

/-- The statement sets just these arguments, in order, in the record with that key. -/
structure SetsJust (s : Sql.Store) (given : List (String × Value)) (key : Value)
    (updating : Statement) : Prop where
  made : s.table.update (.text s.primaryKey) key (named given) = .ok updating
  some : given ≠ []
  reads : ∃ table, s.table.name.text? = .ok table ∧
    updating.ClosedAs (updateSigns table given s.primaryKey key)

/-- What a call with these arguments, and with that key, executes if the driver is willing. -/
inductive Executes (s : Sql.Store) (session : Session Link) (given : List (String × Value))
    (key : Value) : Operation → List Statement → Prop where
  | read {looking : Statement} (h : s.LooksUp key looking) :
    Executes s session given key .read [looking]
  /-- There is no way to learn the key of a new record. -/
  | untellable (h : ¬s.CanTell key session.store) : Executes s session given key .create []
  /-- After the insertion the key is asked for, and the record is looked up. -/
  | created {inserting : Statement} {asked : List String} {looking : Option Statement}
    (h : s.CanTell key session.store) (hinserts : InsertsJust s given inserting)
    (hasked : asked.Sublist s.keyQuery?.toList)
    (hlooks : ∀ look ∈ looking, ∃ key, s.LooksUp key look) :
    Executes s session given key .create (inserting :: (asked.map (⟨·, []⟩) ++ looking.toList))
  | unkeyed (h : key.isNull = true) : Executes s session given key .update []
  /-- There is nothing but the key, and so nothing to write. -/
  | unchanged {looking : Statement} (h : key.isNull = false)
    (hnone : given.filter (·.1 != s.primaryKey) = []) (hlooks : s.LooksUp key looking) :
    Executes s session given key .update [looking]
  | updated {updating looking : Statement} (h : key.isNull = false)
    (hsets : SetsJust s (given.filter (·.1 != s.primaryKey)) key updating)
    (hreported : (session.journal.record (LinkStep.sent updating)).isOk = true)
    (hlooks : s.LooksUp key looking) :
    Executes s session given key .update [updating, looking]
  /-- The event that reports the update cannot be written, and that is all. -/
  | unreported {updating : Statement} (h : key.isNull = false)
    (hsets : SetsJust s (given.filter (·.1 != s.primaryKey)) key updating)
    (hunreported : (session.journal.record (LinkStep.sent updating)).isOk = false) :
    Executes s session given key .update [updating]

theorem exists_inserts (ht : Shows s.table.name)
    (hf : ∀ name ∈ Entries.keys (named given), ∃ c ∈ s.table.columns, name = .text c) :
    ∃ inserting, InsertsJust s given inserting := by
  obtain ⟨inserting, hst⟩ := Sql.Store.exists_insert ht hf
  obtain ⟨table, fields, htable, hfields, hclosed⟩ := Sql.insert_closed hst
  obtain rfl : given = fields := Sql.map_text_injective hfields
  exact ⟨inserting, hst, table, htable, hclosed⟩

theorem exists_sets (ht : Shows s.table.name) (hk : s.primaryKey ∈ s.table.columns)
    (hf : ∀ name ∈ Entries.keys (named given), ∃ c ∈ s.table.columns, name = .text c)
    (hne : given ≠ []) (key : Value) : ∃ updating, SetsJust s given key updating := by
  have hsome : named given ≠ [] := fun h => hne (List.map_eq_nil_iff.mp h)
  obtain ⟨updating, hst⟩ := Sql.Store.exists_update ht hf hsome hk key
  obtain ⟨table, column, fields, htable, hcolumn, hfields, hclosed⟩ := Sql.update_closed hst
  obtain rfl : given = fields := Sql.map_text_injective hfields
  cases hcolumn
  exact ⟨updating, hst, hne, table, htable, hclosed⟩

variable (ht : Shows s.table.name) (hk : s.primaryKey ∈ s.table.columns)
  (hl : session.store.Willing)

include ht hk hl

/-- Looking a record up executes one statement, whatever is made of its result. -/
theorem executions_readByKey (m : Model) (key : Value) : ∃ made looking,
    Sql.Ran session.store made ((readByKey s.access m key).run session).2.store ∧
      s.LooksUp key looking ∧ executions made = [looking] := by
  have hstore : ((readByKey s.access m key).run session).2.store =
      ((s.find key).run session).2.store :=
    Step.run_bind_store fun found later => by cases found <;> rfl
  rw [hstore]
  exact Sql.Store.executions_find ht hk hl key session.journal

/-- The two steps of an update with something to write. -/
theorem executions_updating (hf : ∀ name ∈ Entries.keys (named given), ∃ c ∈ s.table.columns,
    name = .text c) (hne : given ≠ []) (m : Model) (key : Value) : ∃ made updating,
    Sql.Ran session.store made ((do
        let _ ← s.access.updateByKey key (named given)
        readByKey s.access m key : Step Link Value).run session).2.store ∧
      SetsJust s given key updating ∧
      (((session.journal.record (LinkStep.sent updating)).isOk = true ∧
          ∃ looking, s.LooksUp key looking ∧ executions made = [updating, looking]) ∨
        ((session.journal.record (LinkStep.sent updating)).isOk = false ∧
          executions made = [updating])) := by
  obtain ⟨updating, hsets⟩ := exists_sets ht hk hf hne key
  have hsome : named given ≠ [] := fun h => hne (List.map_eq_nil_iff.mp h)
  obtain ⟨made, r, later, hupdate, hran, hmade, hreported⟩ :=
    Sql.Store.executions_update hsets.made hsome hl session.journal
  have hupdate : (s.access.updateByKey key (named given)).run session = (r, later) := hupdate
  cases r with
  | error e =>
    rw [Step.run_bind_of_error hupdate]
    exact ⟨made, updating, hran, hsets, .inr ⟨hreported.symm, hmade⟩⟩
  | ok count =>
    obtain ⟨more, looking, hmore, hlooks, hfound⟩ :=
      executions_readByKey ht hk (hl.later hran) m key
    rw [Step.run_bind_of_ok hupdate]
    refine ⟨made ++ more, updating, hran.trans hmore, hsets,
      .inl ⟨hreported.symm, looking, hlooks, ?_⟩⟩
    rw [Sql.executions_append, hmade, hfound]
    rfl

variable (hown : s.primaryKey = m.primaryKey.name) (hfree : Unreserved (named given))

include hfree

theorem exists_executes_create (largest : Value)
    (hf : ∀ name ∈ Entries.keys (named given), ∃ c ∈ s.table.columns, name = .text c) : ∃ made,
    Sql.Ran session.store made ((run s.access m largest .create (named given)).run session).2.store ∧
      Executes s session given (Value.field (named given) s.primaryKey) .create (executions made) := by
  have hrun : run s.access m largest .create (named given) = _ :=
    Reaches.create.run_eq (checkNames_of_unreserved (isText_named given) hfree) nofun largest
  have hstore : ((run s.access m largest .create (named given)).run session).2.store =
      ((s.create (named given)).run session).2.store := by
    rw [hrun]
    exact Step.run_bind_store fun _ _ => rfl
  obtain ⟨inserting, hinserts⟩ := exists_inserts ht hf
  obtain ⟨made, hran, hmade⟩ :=
    Sql.Store.executions_create ht hk hinserts.made hl session.journal
  refine ⟨made, hstore ▸ hran, ?_⟩
  rcases hmade with ⟨hr, hmade⟩ | ⟨hr, asked, looking, hasked, hlooks, hmade⟩
  · rw [hmade]
    exact .untellable hr
  · rw [hmade]
    exact .created hr hinserts hasked hlooks

include hown

theorem exists_executes_read (largest : Value) : ∃ made,
    Sql.Ran session.store made ((run s.access m largest .read (named given)).run session).2.store ∧
      Executes s session given (Value.field (named given) s.primaryKey) .read (executions made) := by
  have hrun : run s.access m largest .read (named given) = _ :=
    Reaches.read.run_eq (checkNames_of_unreserved (isText_named given) hfree) nofun largest
  obtain ⟨made, looking, hran, hlooks, hmade⟩ :=
    executions_readByKey ht hk hl m (Value.field (named given) m.primaryKey.name)
  rw [hrun]
  refine ⟨made, hran, ?_⟩
  rw [hmade]
  exact .read (hown ▸ hlooks)

theorem exists_executes_update (largest : Value)
    (hf : ∀ name ∈ Entries.keys (named given), ∃ c ∈ s.table.columns, name = .text c) : ∃ made,
    Sql.Ran session.store made ((run s.access m largest .update (named given)).run session).2.store ∧
      Executes s session given (Value.field (named given) s.primaryKey) .update (executions made) := by
  have hchecked := checkNames_of_unreserved (isText_named given) hfree
  cases hkey : (Value.field (named given) m.primaryKey.name).isNull with
  | true =>
    have hrun : (run s.access m largest .update (named given)).run session = _ :=
      run_update_without_key hchecked hkey
    rw [hrun]
    exact ⟨[], .refl _, .unkeyed (hown ▸ hkey)⟩
  | false =>
    have hrun : run s.access m largest .update (named given) = _ :=
      Reaches.update.run_eq hchecked (fun _ => hkey) largest
    rw [hrun, remove_named, ← hown]
    rw [← hown] at hkey
    by_cases hnone : given.filter (·.1 != s.primaryKey) = []
    · -- without fields the store reports that nothing has changed, and the link is not used
      obtain ⟨made, looking, hran, hlooks, hmade⟩ :=
        executions_readByKey ht hk hl m (Value.field (named given) s.primaryKey)
      rw [hnone]
      refine ⟨made, hran, ?_⟩
      rw [hmade]
      exact .unchanged hkey hnone hlooks
    · have hothers : ∀ name ∈ Entries.keys (named (given.filter (·.1 != s.primaryKey))),
          ∃ c ∈ s.table.columns, name = .text c := by
        rw [← remove_named]
        exact keys_remove hf
      obtain ⟨made, updating, hran, hsets, hmade⟩ := executions_updating ht hk hl hothers hnone m
        (Value.field (named given) s.primaryKey)
      refine ⟨made, hran, ?_⟩
      rcases hmade with ⟨hreported, looking, hlooks, hmade⟩ | ⟨hunreported, hmade⟩
      · rw [hmade]
        exact .updated hkey hsets hreported hlooks
      · rw [hmade]
        exact .unreported hkey hsets hunreported

theorem exists_executes (largest : Value) (hop : op ≠ .readMultiple)
    (hf : ∀ name ∈ Entries.keys (named given), ∃ c ∈ s.table.columns, name = .text c) : ∃ made,
    Sql.Ran session.store made ((run s.access m largest op (named given)).run session).2.store ∧
      Executes s session given (Value.field (named given) s.primaryKey) op (executions made) := by
  cases op with
  | readMultiple => exact absurd rfl hop
  | read => exact exists_executes_read ht hk hl hown hfree largest
  | create => exact exists_executes_create ht hk hl hfree largest hf
  | update => exact exists_executes_update ht hk hl hown hfree largest hf

end

/-! ## Main result -/

/-- **Admitted calls pass the columns of the table.** Take an entity that has a model, and the store
that a warehouse makes for it. The key is one of the columns of the table. A call, of any operation
but a listing, with arguments that its signature offers is refused for an argument only if it is an
update without a key, and it is the missing key that is blamed; so no column is unknown, and there is
never nothing to update. If the arguments can be bound, the table has a text for a name and no call of
the driver fails, the statements that are executed are those that belong to the operation
(`Executes`): a creation inserts just the arguments, in order, by its first statement; an update with
a key sets just the arguments other than that key, in order, or writes nothing if there are none, and
then looks the record up. -/
theorem admitted_call_passes_columns {e : Entity} {w : Warehouse} {m : Model} {s : Sql.Store}
    (hn : (Entries.keys e.attributes).Nodup) (hm : Model.ofEntity e = .ok m)
    (hs : w.store e m = .ok s) : s.primaryKey ∈ s.table.columns ∧
      ∀ {op : Operation} {given : List (String × Value)} (largest : Value) (session : Session Link),
        op ≠ .readMultiple → Offered m op (named given) →
        let key := Value.field (named given) s.primaryKey
        let outcome := (run s.access m largest op (named given)).run session
        (∀ fault, outcome.1 = .error (.invalidArgument fault) →
          op = .update ∧ key.isNull = true ∧ fault = .noKey m.name s.primaryKey) ∧
        (Unreserved (named given) → Shows e.tableName → session.store.Willing →
          ∃ made, outcome.2.store.calls = session.store.calls ++ made ∧
            Executes s session given key op (executions made)) := by
  have hdescribes := Model.describes_of_ofEntity hn hm
  obtain ⟨htable, hown⟩ := store_eq_ok hs
  have hk : s.primaryKey ∈ s.table.columns := by
    rw [htable, hown]
    exact List.mem_map_of_mem hdescribes.primaryKey_mem
  refine ⟨hk, fun {op given} largest session hop hoffered => ?_⟩
  have hf : ∀ name ∈ Entries.keys (named given), ∃ c ∈ s.table.columns, name = .text c := by
    rw [htable]
    exact hoffered.mem_fieldNames hdescribes hop
  refine ⟨fun fault => ?_, fun hfree ht hl => ?_⟩
  · rw [hown]
    exact fault_of_refused hk hf (isText_named given) hop
  · have ht : Shows s.table.name := by rwa [htable]
    obtain ⟨made, hran, hmade⟩ := exists_executes ht hk hl hown hfree largest hop hf
    exact ⟨made, hran.calls, hmade⟩

/-- A user is inserted with the arguments in their order. Then one argument other than the key is set,
and the user is looked up. -/
theorem admitted_call_passes_columns_of_users :
    let e : Entity := ⟨"User", [("name", { type := .text "STRING" }),
      ("age", { type := .text "INTEGER" })], .text "users"⟩
    let w : Warehouse := ⟨"host", "path", "token", ""⟩
    let ann : List (String × Value) := [("age", .int 30), ("name", .text "Ann")]
    ∃ m s, Model.ofEntity e = .ok m ∧ w.store e m = .ok s ∧
      (∃ inserting rest, inserting.ClosedAs (insertSigns "users" ann) ∧
        executions ((run s.access m .null .create (named ann)).run ⟨{}, {}⟩).2.store.calls =
          inserting :: rest) ∧
      ∃ updating looking, updating.ClosedAs (updateSigns "users" [("age", .int 31)] "id" (.int 1)) ∧
        s.LooksUp (.int 1) looking ∧
        executions ((run s.access m .null .update (named [("age", .int 31), ("id", .int 1)])).run
          ⟨{}, {}⟩).2.store.calls = [updating, looking] := by
  intro e w ann
  let name : Field := ⟨"name", .string, false, true, true, false⟩
  let age : Field := ⟨"age", .int, false, true, true, false⟩
  let m : Model := ⟨"User", .key "id" .int, [.key "id" .int, name, age], [name, age]⟩
  let s : Sql.Store := ⟨⟨.text "users", ["id", "name", "age"]⟩, "id", none⟩
  have hm : Model.ofEntity e = .ok m := by with_unfolding_all rfl
  have hs : w.store e m = .ok s := by rfl
  have hn : (Entries.keys e.attributes).Nodup := by decide
  obtain ⟨_, hcalls⟩ := admitted_call_passes_columns hn hm hs
  have ht : Shows e.tableName := ⟨"users", rfl⟩
  have hl : Link.Willing {} := ⟨nofun, nofun⟩
  refine ⟨m, s, hm, hs, ?_, ?_⟩
  · have hoffered : Offered m .create (named ann) := by
      simp [Offered, named, ann, m, name, age, Schema.argumentsOf, Schema.Argument.ofField]
    have hfree : Unreserved (named ann) := by
      simp [Unreserved, named, ann, isReserved, reservedNames]
    obtain ⟨_, hexecutes⟩ := hcalls .null ⟨{}, {}⟩ (by decide) hoffered
    obtain ⟨made, hmade, hexecutes⟩ := hexecutes hfree ht hl
    rw [hmade, List.nil_append]
    generalize executions made = statements at hexecutes
    cases hexecutes with
    | untellable hno => exact absurd (fun _ _ => rfl) hno
    | created _ hinserts =>
      obtain ⟨_, ⟨⟩, hclosed⟩ := hinserts.reads
      exact ⟨_, _, hclosed, rfl⟩
  · have hoffered : Offered m .update (named [("age", .int 31), ("id", .int 1)]) := by
      simp [Offered, named, m, name, age, Field.key, Schema.argumentsOf, Schema.Argument.ofField]
    have hfree : Unreserved (named [("age", .int 31), ("id", .int 1)]) := by
      simp [Unreserved, named, isReserved, reservedNames]
    have hkey : Value.field (named [("age", .int 31), ("id", .int 1)]) "id" = .int 1 := by
      with_unfolding_all rfl
    obtain ⟨_, hexecutes⟩ := hcalls .null ⟨{}, {}⟩ (by decide) hoffered
    obtain ⟨made, hmade, hexecutes⟩ := hexecutes hfree ht hl
    rw [hmade, List.nil_append]
    generalize executions made = statements at hexecutes
    cases hexecutes with
    | unkeyed h =>
      rw [show _ = _ from hkey] at h
      cases h
    | unchanged _ hnone => cases hnone
    | updated _ hsets _ hlooks =>
      rw [show _ = _ from hkey] at hsets hlooks
      obtain ⟨_, ⟨⟩, hclosed⟩ := hsets.reads
      exact ⟨_, _, hclosed, hlooks, rfl⟩
    | unreported _ _ hunreported => cases hunreported

end Resolver

end EntityApi
