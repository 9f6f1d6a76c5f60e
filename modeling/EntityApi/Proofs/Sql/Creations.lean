import EntityApi.Proofs.Sql.Bindings
import EntityApi.Proofs.Sql.Discipline

/-! # How a created record gets its key

A creation inserts on its first visit and reads back on its second. How the first one
ends is decided in a few steps, each of which may be the last: whether a key can be told
at all, the insertion, the telling of the key, and whether that is a key (`Inserting`).
The second one comes only after a commit and looks for that very key (`Finding`). What
the driver does is read off its script: the outcome of the insertion is the first, that
of the key query the second. -/
namespace EntityApi.Sql

open Log.Journal (Alike)

/-! ## One execution -/

namespace Link

/-- The coming execution, after `n` others, fails: in the driver, or as it cannot be reported. -/
inductive Fails (l : Link) (j : Log.Journal) (n : Nat) (st : Statement) : Failure → Prop
  | driver {text : String} (h : (l.outcome n).error = some text) : Fails l j n st (.driver text)
  | report {e : Failure} (h : (l.outcome n).error = none)
    (hj : j.record (LinkStep.sent st) = .error e) : Fails l j n st e

/-- What fails depends on the outcome that is next and on which events can be reported. -/
theorem Fails.transfer {l m : Link} {j k : Log.Journal} {n i : Nat} {st : Statement} {e : Failure}
    (h : l.Fails j n st e) (ho : m.outcome i = l.outcome n) (hjk : Alike j k) :
    m.Fails k i st e := by
  cases h with
  | driver h => exact .driver (ho ▸ h)
  | report h hj =>
    rcases hjk.record (LinkStep.sent st) with ⟨f, hj', hk⟩ | ⟨_, _, hj', _⟩
    · obtain rfl : e = f := Except.error.inj (hj.symm.trans hj')
      exact .report (ho ▸ h) hk
    · rw [hj] at hj'
      cases hj'

end Link

theorem run_execute (st : Statement) (l : Link) (j : Log.Journal) :
    (∃ k, (LinkStep.execute st).run ⟨l, j⟩ = (.ok (), ⟨l.executed st, k⟩) ∧
      j.record (LinkStep.sent st) = .ok k ∧ l.Executes j 0 st) ∨
    ∃ e later, (LinkStep.execute st).run ⟨l, j⟩ = (.error e, ⟨later, j⟩) ∧ l.Fails j 0 st e ∧
      Ran l [.execute st.sql st.params] later := by
  cases hf : (l.outcome 0).error with
  | some text =>
    have hsend : (LinkStep.send st).run ⟨l, j⟩ = (.error (.driver text), ⟨l.failed st, j⟩) :=
      run_send_of_fault hf
    exact .inr ⟨_, _, Step.run_bind_of_error hsend, .driver hf, l.ran_failed st⟩
  | none =>
    have hsend : (LinkStep.send st).run ⟨l, j⟩ = (.ok (), ⟨l.executed st, j⟩) := run_send_of_ok hf
    cases hj : j.record (LinkStep.sent st) with
    | error e =>
      refine .inr ⟨e, l.executed st, ?_, .report hf hj, l.ran_executed st⟩
      exact (Step.run_bind_of_ok hsend).trans (Step.run_log_of_error hj)
    | ok k =>
      refine .inl ⟨k, ?_, rfl, hf, by rw [hj]; rfl⟩
      exact (Step.run_bind_of_ok hsend).trans (Step.run_log_of_ok hj)

namespace Store

/-! ## The courses of a creation -/

/-- How the key of a new record is told once it is inserted, and by which calls. -/
inductive Tells (s : Store) (fields : Row) (l : Link) (j : Log.Journal) :
    List Call → Result Value → Prop
  /-- It is among the fields. -/
  | given (hk : (Value.field fields s.primaryKey).isNull = false) :
    Tells s fields l j [] (.ok (Value.field fields s.primaryKey))
  /-- The cursor of the insertion has it. -/
  | cursor (hk : (Value.field fields s.primaryKey).isNull = true) (hq : s.keyQuery? = none) :
    Tells s fields l j [] (.ok (l.outcome 0).lastKey)
  /-- It is what the key query finds first. -/
  | query {query : String} (hk : (Value.field fields s.primaryKey).isNull = true)
    (hq : s.keyQuery? = some query) (hx : l.Executes j 1 ⟨query, []⟩) :
    Tells s fields l j [.execute query [], .fetchOne] (.ok (firstValue (l.outcome 1).rows))
  | noAnswer {query : String} {e : Failure} (hk : (Value.field fields s.primaryKey).isNull = true)
    (hq : s.keyQuery? = some query) (hf : l.Fails j 1 ⟨query, []⟩ e) :
    Tells s fields l j [.execute query []] (.error e)

/-- The visit that inserts a record, and the key that comes of it. -/
inductive Inserting (s : Store) (fields : Row) (st : Statement) (l : Link) (j : Log.Journal) :
    Visit → Result Value → Prop
  | unconnected {text : String} (hc : l.connects.headD none = some text) :
    Inserting s fields st l j .refused (.error (.driver text))
  /-- There is no way to learn the key, so nothing is executed. -/
  | untellable {table : String} (hc : l.connects.headD none = none)
    (hr : ¬s.CanTell (Value.field fields s.primaryKey) l) (ht : s.table.name.text? = .ok table) :
    Inserting s fields st l j (.done [] false) (.error (.outage (.keysNotReported table)))
  | failed {e : Failure} (hc : l.connects.headD none = none)
    (hr : s.CanTell (Value.field fields s.primaryKey) l) (hf : l.Fails j 0 st e) :
    Inserting s fields st l j (.done [.execute st.sql st.params] false) (.error e)
  | untold {steps : List Call} {e : Failure} (hc : l.connects.headD none = none)
    (hr : s.CanTell (Value.field fields s.primaryKey) l) (hx : l.Executes j 0 st)
    (h : s.Tells fields l j steps (.error e)) :
    Inserting s fields st l j (.done (.execute st.sql st.params :: steps) false) (.error e)
  /-- The record is inserted and its key is null, so the insertion is not committed. -/
  | keyless {steps : List Call} {key : Value} {table : String} (hc : l.connects.headD none = none)
    (hr : s.CanTell (Value.field fields s.primaryKey) l) (hx : l.Executes j 0 st)
    (h : s.Tells fields l j steps (.ok key)) (hkey : key.isNull = true)
    (ht : s.table.name.text? = .ok table) :
    Inserting s fields st l j (.done (.execute st.sql st.params :: steps) false)
      (.error (.outage (.noKeyReported table)))
  | keyed {steps : List Call} {key : Value} (hc : l.connects.headD none = none)
    (hr : s.CanTell (Value.field fields s.primaryKey) l) (hx : l.Executes j 0 st)
    (h : s.Tells fields l j steps (.ok key)) (hkey : key.isNull = false) :
    Inserting s fields st l j (.done (.execute st.sql st.params :: steps) true) (.ok key)

/-- The statement looks for one record with that key, in all columns of the table. -/
def LooksUp (s : Store) (key : Value) (looking : Statement) : Prop :=
  s.primaryKey ∈ s.table.columns ∧ ∃ table, s.table.name.text? = .ok table ∧
    looking = ⟨"SELECT " ++ ", ".intercalate s.table.columns ++ " FROM " ++ table ++ " WHERE " ++
      s.primaryKey ++ " = :key LIMIT 1", [("key", key)]⟩

/-- The visit that looks a record up by its key, and what is found. -/
inductive Finding (s : Store) (key : Value) (l : Link) (j : Log.Journal) :
    List Visit → Result (Option Row) → Prop
  | noColumn {table : String} (hk : s.primaryKey ∉ s.table.columns)
    (ht : s.table.name.text? = .ok table) :
    Finding s key l j [] (.error (.invalidArgument (.unknownColumn s.primaryKey table)))
  | unconnected {text : String} (hk : s.primaryKey ∈ s.table.columns)
    (hc : l.connects.headD none = some text) :
    Finding s key l j [.refused] (.error (.driver text))
  | failed {looking : Statement} {e : Failure} (hc : l.connects.headD none = none)
    (hlooks : s.LooksUp key looking) (hf : l.Fails j 0 looking e) :
    Finding s key l j [.done [.execute looking.sql looking.params] false] (.error e)
  | answered {looking : Statement} (hc : l.connects.headD none = none)
    (hlooks : s.LooksUp key looking) (hx : l.Executes j 0 looking) :
    Finding s key l j [.done [.execute looking.sql looking.params, .fetchAll] false]
      ((l.outcome 0).records.map List.head?)

/-! ## The insertion -/

variable {s : Store} {fields : Row} {st : Statement} {l : Link} {j k : Log.Journal}

/-- Fields for columns of the table make a statement. -/
theorem exists_insert {t : Table} (ht : Shows t.name)
    (hf : ∀ name ∈ Entries.keys fields, ∃ c ∈ t.columns, name = .text c) :
    ∃ inserting, t.insert fields = .ok inserting := by
  obtain ⟨table, htable⟩ := ht
  obtain ⟨make, hmake⟩ := insert_eq_map hf
  exact ⟨make table, by rw [hmake, htable]; rfl⟩

/-- The key of an inserted record is asked for on the cursor of the insertion. -/
theorem run_generatedKey (hk : (Value.field fields s.primaryKey).isNull = true)
    (hj : j.record (LinkStep.sent st) = .ok k) :
    ∃ steps r later, s.generatedKey.run ⟨l.opened.executed st, k⟩ = (r, later) ∧
      s.Tells fields l j steps r ∧ Ran (l.opened.executed st) steps later.store := by
  unfold generatedKey
  cases hq : s.keyQuery? with
  | none => exact ⟨_, _, _, rfl, .cursor hk hq, Ran.refl _⟩
  | some query =>
    dsimp only
    rcases run_execute ⟨query, []⟩ (l.opened.executed st) k with
      ⟨k', hx, _, hexec⟩ | ⟨e, later, hx, hfails, hran⟩
    · have hexec : l.Executes j 1 ⟨query, []⟩ :=
        ⟨hexec.1, (Log.Journal.record_isOk_of_record hj _).symm.trans hexec.2⟩
      have hran := (l.opened.executed st).ran_executed ⟨query, []⟩
      refine ⟨_, _, ⟨_, k'⟩, ?_, .query hk hq hexec, hran.trans (Link.ran_fetched _)⟩
      rw [Step.run_bind_of_ok hx]
      exact run_fetchKey (fun _ _ => rfl) rfl rfl
    · have hfails : l.Fails j 1 ⟨query, []⟩ e :=
        hfails.transfer rfl (Log.Journal.alike_of_record hj)
      exact ⟨_, _, ⟨later, k⟩, Step.run_bind_of_error hx, .noAnswer hk hq hfails, hran⟩

/-- The work on the cursor of an insertion, once it is open. -/
theorem run_insertion (ht : Shows s.table.name) (hc : l.connects.headD none = none)
    (st : Statement) (j : Log.Journal) : ∃ steps r later,
      (s.insertion (Value.field fields s.primaryKey) st).run ⟨l.opened, j⟩ = (r, later) ∧
      s.Inserting fields st l j (.done steps r.isOk) r ∧ Ran l.opened steps later.store := by
  obtain ⟨table, htable⟩ := ht
  unfold insertion
  by_cases hr : s.CanTell (Value.field fields s.primaryKey) l
  case neg =>
    have hcheck : (s.checkKeys (Value.field fields s.primaryKey)).run ⟨l.opened, j⟩ =
        (.error (.outage (.keysNotReported table)), ⟨l.opened, j⟩) := by
      rw [run_checkKeys_of_not_canTell hr, htable]
      rfl
    exact ⟨_, _, _, Step.run_bind_of_error hcheck, .untellable hc hr htable, Ran.refl _⟩
  have hcheck : (s.checkKeys (Value.field fields s.primaryKey)).run ⟨l.opened, j⟩ =
      (.ok (), ⟨l.opened, j⟩) := run_checkKeys_of_canTell hr
  rw [Step.run_bind_of_ok hcheck]
  rcases run_execute st l.opened j with ⟨k, hx, hj, hexec⟩ | ⟨e, later, hx, hfails, hran⟩
  case inr =>
    have hfails : l.Fails j 0 st e := hfails.transfer rfl (.refl j)
    exact ⟨_, _, ⟨later, j⟩, Step.run_bind_of_error hx, .failed hc hr hfails, hran⟩
  have hexec : l.Executes j 0 st := hexec
  have hran := l.opened.ran_executed st
  rw [Step.run_bind_of_ok hx]
  cases hk : (Value.field fields s.primaryKey).isNull with
  | false =>
    exact ⟨_, _, ⟨_, k⟩, rfl, .keyed hc hr hexec (.given hk) hk, hran⟩
  | true =>
    obtain ⟨steps, r, later, hkey, htells, hmore⟩ := run_generatedKey hk hj
    simp only [↓reduceIte]
    cases r with
    | error e =>
      exact ⟨_, _, _, Step.run_bind_of_error hkey, .untold hc hr hexec htells, hran.trans hmore⟩
    | ok key =>
      rw [Step.run_bind_of_ok hkey]
      cases hnull : key.isNull with
      | false =>
        exact ⟨_, _, later, rfl, .keyed hc hr hexec htells hnull, hran.trans hmore⟩
      | true =>
        refine ⟨_, .error (.outage (.noKeyReported table)), later, ?_,
          .keyless hc hr hexec htells hnull htable, hran.trans hmore⟩
        simp only [↓reduceIte, htable]
        rfl

/-- The first visit of a creation, whatever happens on it. -/
theorem run_insert (ht : Shows s.table.name) (h : s.table.insert fields = .ok st) (l : Link)
    (j : Log.Journal) : ∃ visit r later, (s.insert fields).run ⟨l, j⟩ = (r, later) ∧
      s.Inserting fields st l j visit r ∧ Ran l visit.calls later.store := by
  rw [run_insert_of_statement h]
  cases hc : l.connects.headD none with
  | some text => exact ⟨_, _, _, run_unit_of_refused hc, .unconnected hc, l.ran_tried⟩
  | none =>
    obtain ⟨steps, r, later, hbody, hinserting, hran⟩ := run_insertion ht hc st j
    obtain ⟨hunit, hcalls⟩ := run_unit_of_body true hc hbody hran
    exact ⟨_, _, _, hunit, hinserting, hcalls⟩

/-- A visit that inserts a record commits exactly if its key comes of it. -/
theorem Inserting.committed_iff {visit : Visit} {r : Result Value}
    (h : s.Inserting fields st l j visit r) : visit.committed = true ↔ ∃ key, r = .ok key := by
  cases h with
  | keyed => exact ⟨fun _ => ⟨_, rfl⟩, fun _ => rfl⟩
  | unconnected | untellable | failed | untold | keyless => exact ⟨nofun, nofun⟩

/-! ## Reading the record back -/

/-- What looks a record up by the key is a statement that looks it up. -/
theorem exists_looksUp {table : String} (ht : s.table.name.text? = .ok table)
    (hk : s.primaryKey ∈ s.table.columns) (key : Value) :
    ∃ sql, s.table.selectByKey (.text s.primaryKey) = .ok sql ∧
      s.LooksUp key ⟨sql, [("key", key)]⟩ :=
  ⟨_, Table.selectByKey_of_mem ht hk, hk, table, ht, rfl⟩

/-- The visit that looks a record up, whatever happens on it. -/
theorem run_find (ht : Shows s.table.name) (key : Value) (l : Link) (j : Log.Journal) :
    ∃ visits found later, (s.find key).run ⟨l, j⟩ = (found, later) ∧
      s.Finding key l j visits found ∧ Ran l (visits.flatMap Visit.calls) later.store := by
  obtain ⟨table, htable⟩ := ht
  unfold find
  by_cases hk : s.primaryKey ∈ s.table.columns
  case neg =>
    rw [Table.selectByKey_of_unknown htable hk]
    exact ⟨_, _, _, Step.run_bind_of_error (Step.run_ofResult _), .noColumn hk htable, Ran.refl _⟩
  obtain ⟨sql, hs, hlooks⟩ := exists_looksUp htable hk key
  rw [hs, Step.run_bind_of_ok (Step.run_ofResult _)]
  cases hc : l.connects.headD none with
  | some text => exact ⟨_, _, _, run_unit_of_refused hc, .unconnected hk hc, l.ran_tried⟩
  | none =>
    rcases run_execute ⟨sql, [("key", key)]⟩ l.opened j with
      ⟨k, hx, _, hexec⟩ | ⟨e, later, hx, hfails, hran⟩
    · have hexec : l.Executes j 0 ⟨sql, [("key", key)]⟩ := hexec
      have hbody : Step.run (do
          LinkStep.execute ⟨sql, [("key", key)]⟩
          return (← LinkStep.fetchRecords).head?) ⟨l.opened, j⟩ =
            ((l.outcome 0).records.map List.head?,
              ⟨(l.opened.executed ⟨sql, [("key", key)]⟩).drained, k⟩) := by
        have hrecords : LinkStep.fetchRecords.run ⟨l.opened.executed ⟨sql, [("key", key)]⟩, k⟩ =
            ((l.outcome 0).records, ⟨(l.opened.executed ⟨sql, [("key", key)]⟩).drained, k⟩) :=
          run_fetchRecords
        rw [Step.run_bind_of_ok hx, Step.run_bind, hrecords]
        cases (l.outcome 0).records <;> rfl
      have hran := (l.opened.ran_executed ⟨sql, [("key", key)]⟩).trans (Link.ran_drained _)
      obtain ⟨hunit, hcalls⟩ := run_unit_of_body false hc hbody hran
      exact ⟨_, _, _, hunit, .answered hc hlooks hexec, by simpa using hcalls⟩
    · have hfails : l.Fails j 0 ⟨sql, [("key", key)]⟩ e := hfails.transfer rfl (.refl j)
      have hbody := Step.run_bind_of_error (f := fun _ => do
        return (← LinkStep.fetchRecords).head?) hx
      obtain ⟨hunit, hcalls⟩ := run_unit_of_body false hc hbody hran
      exact ⟨_, _, _, hunit, .failed hc hlooks hfails, by simpa using hcalls⟩

/-- A record that is not found again is what was passed, with the key. -/
theorem run_create_of_key {key : Value} {mid later : Session Link} {found : Result (Option Row)}
    (hi : (s.insert fields).run ⟨l, j⟩ = (.ok key, mid))
    (hf : (s.find key).run mid = (found, later)) : (s.create fields).run ⟨l, j⟩ =
      (found.map fun record => record.getD (Entries.put fields (.text s.primaryKey) key),
        later) := by
  unfold create
  rw [Step.run_bind_of_ok hi]
  rcases found with e | _ | record
  · exact Step.run_bind_of_error hf
  · exact Step.run_bind_of_ok hf
  · exact Step.run_bind_of_ok hf

/-- **A created record has its key, and is read back by it.** Whatever the driver does, fields for
columns of the table are inserted on one visit, by one statement, which reads with each field in its
place (`Statement.ClosedAs`), and what comes of it is the key or a refusal (`Inserting`). A key among
the fields is used as it is, be it zero or an empty text; a null or missing one is asked for on the
cursor of the insertion, through the key query if there is one (`Tells`). The visit commits exactly if
there is a key in the end, and nothing is executed if there is no way to learn it. Only then is the
record looked for by that key (`Finding`), and what was passed, with the key, stands in for a record
that is not found. -/
theorem creation_keyed_and_read_back (s : Store) (ht : Shows s.table.name) {fields : Row}
    (hf : ∀ name ∈ Entries.keys fields, ∃ c ∈ s.table.columns, name = .text c) (l : Link)
    (j : Log.Journal) : ∃ inserting visit key mid, s.table.insert fields = .ok inserting ∧
      (∃ table, ∃ given : List (String × Value), s.table.name.text? = .ok table ∧
        fields = given.map (Prod.map .text id) ∧
        inserting.ClosedAs (insertSigns table given)) ∧
      s.Inserting fields inserting l j visit key ∧
      (visit.committed = true ↔ ∃ k, key = .ok k) ∧ Ran l visit.calls mid.store ∧
      match key with
      | .error e => (s.access.create fields).run ⟨l, j⟩ = (.error e, mid)
      | .ok key => ∃ visits found later, s.Finding key mid.store mid.journal visits found ∧
          Ran mid.store (visits.flatMap Visit.calls) later.store ∧
          (s.access.create fields).run ⟨l, j⟩ =
            (found.map fun record => record.getD (Entries.put fields (.text s.primaryKey) key),
              later) := by
  obtain ⟨inserting, hins⟩ := exists_insert ht hf
  obtain ⟨visit, key, mid, hrun, hinserting, hran⟩ := run_insert ht hins l j
  refine ⟨inserting, visit, key, mid, hins, insert_closed hins, hinserting,
    hinserting.committed_iff, hran, ?_⟩
  cases key with
  | error e => exact Step.run_bind_of_error hrun
  | ok key =>
    obtain ⟨visits, found, later, hfind, hfinding, hmore⟩ := run_find ht key mid.store mid.journal
    exact ⟨visits, found, later, hfinding, hmore, run_create_of_key hrun hfind⟩

/-- The key query tells the key zero, which counts, and the record is not found again. -/
theorem creation_keyed_and_read_back_of_tags :
    let s : Store := ⟨⟨.text "tag", ["id", "label"]⟩, "id", some "SELECT MAX(id) FROM tag"⟩
    let fields : Row := [(.text "label", .text "red")]
    let l : Link := { outcomes := [{}, { rows := [[.int 0]] }, {}] }
    Shows s.table.name ∧
      (∀ name ∈ Entries.keys fields, ∃ c ∈ s.table.columns, name = .text c) ∧
      ((s.access.create fields).run ⟨l, {}⟩).1 =
        .ok [(.text "label", .text "red"), (.text "id", .int 0)] ∧
      ∃ inserting visit key, inserting.ClosedAs (insertSigns "tag" [("label", .text "red")]) ∧
        s.Inserting fields inserting l {} visit (.ok key) ∧ visit.committed = true := by
  intro s fields l
  have ht : Shows s.table.name := ⟨_, rfl⟩
  have hf : ∀ name ∈ Entries.keys fields, ∃ c ∈ s.table.columns, name = .text c :=
    List.forall_mem_singleton.mpr ⟨"label", by decide, rfl⟩
  have hcreated : ((s.access.create fields).run ⟨l, {}⟩).1 =
      .ok [(.text "label", .text "red"), (.text "id", .int 0)] := by with_unfolding_all rfl
  refine ⟨ht, hf, hcreated, ?_⟩
  obtain ⟨inserting, visit, key, mid, _, ⟨table, given, htable, hgiven, hclosed⟩, hinserting,
    hcommitted, _, hrest⟩ := creation_keyed_and_read_back s ht hf l {}
  obtain rfl : "tag" = table := Except.ok.inj htable
  obtain rfl : [("label", .text "red")] = given := map_text_injective hgiven
  cases key with
  | error e =>
    rw [show _ = _ from hrest] at hcreated
    cases hcreated
  | ok key => exact ⟨inserting, visit, key, hclosed, hinserting, hcommitted.mpr ⟨key, rfl⟩⟩

end Store

end EntityApi.Sql
