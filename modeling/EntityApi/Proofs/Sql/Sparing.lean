import EntityApi.Proofs.Sql.Commits
import EntityApi.Proofs.Sql.Refusals

/-! # Failures that no argument is to blame for

Much can go wrong in a request to a table that has to do neither with columns nor with
what there is to update: the driver fails, an event cannot be written, a value has no
text. Of such a step it is said that it spares the arguments (`Step.Spares`). This is
kept by everything that steps are built with, and the making of statements on columns
of the table has nothing else to refuse (`Store.find_spares`, `Store.create_spares`,
`Store.update_spares`). -/
namespace EntityApi

namespace Sql

variable {α β : Type}

/-- No argument is refused; anything else may fail. -/
def Spares (r : Result α) : Prop := ¬Refuses r

namespace Spares

theorem ok (a : α) : Spares (.ok a : Result α) := by
  rintro ⟨_, ⟨⟩⟩

theorem mishap (kind : Accident) (text : String) : Spares (mishap kind text : Result α) := by
  rintro ⟨_, ⟨⟩⟩

theorem outage (cause : Outage) : Spares (refuse (.outage cause) : Result α) := by
  rintro ⟨_, ⟨⟩⟩

theorem of_fits {r : Result α} (h : Value.Fits r) : Spares r := by
  rintro ⟨fault, hr⟩
  obtain ⟨_, ⟨⟩⟩ := h _ hr

/-- A failure is the same whatever was to be computed. -/
theorem error {e : Failure} (h : Spares (.error e : Result α)) : Spares (.error e : Result β) := by
  rintro ⟨fault, hfault⟩
  cases hfault
  exact h ⟨fault, rfl⟩

theorem bind {r : Result α} {f : α → Result β} (hr : Spares r)
    (hf : ∀ a, r = .ok a → Spares (f a)) : Spares (r >>= f) := by
  rintro ⟨fault, h⟩
  rcases Result.bind_eq_error.mp h with h | ⟨a, ha, h⟩
  · exact hr ⟨fault, h⟩
  · exact hf a ha ⟨fault, h⟩

theorem map {r : Result α} (hr : Spares r) (f : α → β) : Spares (r.map f) := by
  cases r with
  | error e => exact hr.error
  | ok a => exact ok (f a)

theorem mapM {f : α → Result β} {as : List α} (h : ∀ a ∈ as, Spares (f a)) :
    Spares (as.mapM f) := by
  rintro ⟨fault, hr⟩
  obtain ⟨before, a, after, rfl, _, ha⟩ := Result.mapM_eq_error.mp hr
  exact h a (List.mem_append_right before List.mem_cons_self) ⟨fault, ha⟩

end Spares

/-! ## Values and events -/

theorem jsonName_spares (v : Value) : Spares v.jsonName := by
  cases v with
  | int n => exact .of_fits (Value.intText?_fits n)
  | text | null | bool | real => exact .ok _
  | _ => exact .mishap _ _

theorem toJson?_spares (v : Value) : Spares v.toJson? := by
  refine Value.toJson?.induct (fun v => Spares v.toJson?) (fun es => Spares (Value.jsonMembers? es))
    (fun vs => Spares (Value.jsonItems? vs)) ?null ?bool ?int ?real ?text ?list ?pair ?map ?other
    ?nil ?cons ?noEntry ?entry v
  case int =>
    intro n
    rw [Value.toJson?]
    exact .bind (.of_fits (Value.intText?_fits n)) fun _ _ => .ok _
  case list =>
    intro items ih
    rw [Value.toJson?]
    exact ih.bind fun _ _ => .ok _
  case pair =>
    intro a b iha ihb
    rw [Value.toJson?]
    exact iha.bind fun _ _ => ihb.bind fun _ _ => .ok _
  case map =>
    intro entries ih
    rw [Value.toJson?]
    exact ih.bind fun _ _ => .ok _
  case other =>
    intro v _ _ _ _ _ _ _ _
    rw [Value.toJson?]
    · exact .bind (.of_fits (Value.text?_fits v)) fun _ _ => .ok _
    all_goals assumption
  case cons =>
    intro v vs ihv ihvs
    rw [Value.jsonItems?]
    exact ihv.bind fun _ _ => ihvs.bind fun _ _ => .ok _
  case entry =>
    intro k v es ihv ihes
    rw [Value.jsonMembers?]
    exact (jsonName_spares k).bind fun _ _ => ihv.bind fun _ _ => ihes.bind fun _ _ => .ok _
  all_goals
    intros
    simp only [Value.toJson?, Value.jsonItems?, Value.jsonMembers?]
    exact .ok _

theorem record_spares (j : Log.Journal) (e : Log.Event) : Spares (j.record e) := by
  unfold Log.Journal.record
  split
  · refine .bind ?_ fun _ _ => .ok _
    exact (toJson?_spares _).bind fun _ _ => .ok _
  · exact .ok j

/-- A whole number is before a value, or not, or the two have no order. -/
theorem before_int_spares (n : Int) (v : Value) : Spares (Value.before false (.int n) v) := by
  cases v with
  | bool | int | real => exact .ok _
  | decimal d =>
    simp only [Value.before]
    split
    · split
      · exact .mishap _ _
      · exact .ok _
    · exact .mishap _ _
  | _ => exact .mishap _ _

theorem plain_spares (v : Value) : Spares (LinkStep.plain v) := by
  unfold LinkStep.plain
  split
  · split
    · exact .mishap _ _
    · exact .ok _
  · exact .ok _
  · exact .ok _

theorem records_spares (o : Outcome) : Spares o.records := by
  refine .mapM fun row _ => .bind (.mapM fun field _ => ?_) fun _ _ => .ok _
  exact (plain_spares _).bind fun _ _ => .ok _

end Sql

/-! ## Steps -/

namespace Step

variable {σ α β : Type}

/-- However the step ends, no argument is refused. -/
def Spares (x : Step σ α) : Prop := ∀ session, Sql.Spares (x.run session).1

namespace Spares

theorem ofResult {r : Result α} (h : Sql.Spares r) : Spares (ofResult r : Step σ α) := fun _ => h

theorem pure (a : α) : Spares (pure a : Step σ α) := ofResult (.ok a)

theorem look {f : σ → Result α} (h : ∀ store, Sql.Spares (f store)) : Spares (look f) :=
  fun session => h session.store

theorem change (f : σ → α × σ) : Spares (change f) := fun _ => .ok _

theorem log (e : Log.Event) : Spares (log e : Step σ Unit) := by
  intro session
  have hrecord := Sql.record_spares session.journal e
  cases h : session.journal.record e with
  | ok journal =>
    rw [run_log_of_ok h]
    exact .ok ()
  | error f =>
    rw [run_log_of_error h]
    rw [h] at hrecord
    exact hrecord.error

theorem bind {x : Step σ α} {f : α → Step σ β} (hx : Spares x) (hf : ∀ a, Spares (f a)) :
    Spares (x >>= f) := by
  intro session
  have hfirst := hx session
  rw [run_bind]
  rcases h : x.run session with ⟨e | a, later⟩
  · rw [h] at hfirst
    exact hfirst.error
  · exact hf a later

end Spares

end Step

namespace Sql

variable {α : Type}

namespace LinkStep

theorem execute_spares (s : Statement) : Step.Spares (execute s) := by
  refine .bind ?_ fun _ => .log _
  intro session
  cases h : (session.store.outcome 0).error with
  | none =>
    rw [run_send_of_ok h]
    exact .ok ()
  | some text =>
    rw [run_send_of_fault h]
    rintro ⟨_, ⟨⟩⟩

theorem fetchRecords_spares : Step.Spares fetchRecords :=
  fun session => records_spares session.store.current

theorem unit_spares {body : LinkStep α} (h : Step.Spares body) (commits : Bool) :
    Step.Spares (unit commits body) := by
  intro session
  cases hc : session.store.connects.headD none with
  | some text =>
    rw [run_unit_of_refused hc]
    rintro ⟨_, ⟨⟩⟩
  | none =>
    rw [run_unit_of_connected hc]
    exact h _

end LinkStep

/-! ## Requests -/

namespace Store

open LinkStep

variable {s : Store} {fields : Row}

theorem affected_spares (rowCount : Value) : Spares (affected rowCount) := by
  unfold affected
  split
  · exact .ok _
  · refine (before_int_spares 0 rowCount).bind fun _ _ => ?_
    split <;> exact .ok _

/-- Whether the table has a text for a name is none of the arguments' business. -/
theorem of_tableName {α : Type} {r : Result α} (h : ∃ make, r = s.table.name.text?.map make) :
    Spares r := by
  obtain ⟨make, rfl⟩ := h
  exact (Spares.of_fits (Value.text?_fits _)).map make

theorem tableOutage_spares {α : Type} (cause : String → Outage) :
    Spares (do refuse (.outage (cause (← s.table.name.text?))) : Result α) :=
  .bind (.of_fits (Value.text?_fits _)) fun _ _ => .outage _

theorem generatedKey_spares : Step.Spares s.generatedKey := by
  unfold generatedKey
  split
  · exact .look fun _ => .ok _
  · refine .bind (execute_spares _) fun _ => .bind (.change _) fun found => ?_
    split <;> exact .pure _

theorem insertion_spares (key : Value) (inserting : Statement) :
    Step.Spares (s.insertion key inserting) := by
  refine .bind (.look fun l => ?_) fun _ => .bind (execute_spares _) fun _ => ?_
  · split
    · exact tableOutage_spares .keysNotReported
    · exact .ok ()
  split
  · refine .bind generatedKey_spares fun key => ?_
    dsimp only
    split
    · exact .bind (.ofResult (tableOutage_spares .noKeyReported)) fun _ => .pure _
    · exact .pure _
  · exact .pure _

variable (hk : s.primaryKey ∈ s.table.columns)

include hk

/-- A record that is looked for by the key of the table. -/
theorem find_spares (key : Value) : Step.Spares (s.find key) := by
  refine .bind (.ofResult (of_tableName (selectByKey_eq_map hk))) fun sql => unit_spares ?_ false
  exact .bind (execute_spares _) fun _ => .bind fetchRecords_spares fun _ => .pure _

variable (hf : ∀ name ∈ Entries.keys fields, ∃ c ∈ s.table.columns, name = .text c)

include hf

theorem create_spares : Step.Spares (s.create fields) := by
  refine .bind ?_ fun key => .bind (find_spares hk key) fun found => ?_
  · exact .bind (.ofResult (of_tableName (insert_eq_map hf))) fun inserting =>
      unit_spares (insertion_spares _ inserting) true
  · cases found <;> exact .pure _

/-- Without fields there is no statement. -/
theorem update_spares (key : Value) : Step.Spares (s.update key fields) := by
  unfold update
  split
  · exact .pure _
  · rename_i hne
    have hmake := update_eq_map hf (by simpa using hne) hk key
    refine .bind (.ofResult (of_tableName hmake)) fun updating => ?_
    refine .bind (unit_spares ?_ true) fun rowCount => .ofResult (affected_spares rowCount)
    exact .bind (execute_spares updating) fun _ => .look fun _ => .ok _

end Store

end Sql

end EntityApi
