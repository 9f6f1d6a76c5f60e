import EntityApi.Proofs.Steps
import EntityApi.Sql.Store

/-! # Visits to a database

Connections are used in one way only, and a use of one is a visit: connect, open
a cursor, execute and fetch on it, close it, perhaps commit, close the
connection. What the database does is a script of faults and outcomes, of which
each connecting and each execution takes the next (`Ran`), so that the calls of
a run tell which faults it met (`Link.faults`). A fault is the last thing that
happens on a cursor (`Surfaces`), and so in a visit (`unit_visit`). -/
namespace EntityApi.Sql

variable {α β : Type}

/-! ## Calls and visits -/

namespace Call

/-- Whether a call works on an open cursor. -/
def isStep : Call → Bool
  | execute _ _ | fetchOne | fetchAll => true
  | _ => false

def isConnect : Call → Bool
  | connect => true
  | _ => false

def isExecute : Call → Bool
  | execute _ _ => true
  | _ => false

end Call

/-- One use of a connection: it was refused, or steps were done on its cursor. -/
inductive Visit where
  | refused
  | done (steps : List Call) (committed : Bool)

namespace Visit

def calls : Visit → List Call
  | refused => [.connect]
  | done steps committed =>
    [.connect, .cursor] ++ (steps ++
      (.closeCursor :: (if committed then [.commit] else []) ++ [.close]))

def committed : Visit → Bool
  | refused => false
  | done _ committed => committed

/-- Between the opening and the closing of the cursor there are only executions and fetches. -/
def Proper : Visit → Prop
  | refused => True
  | done steps _ => ∀ c ∈ steps, c.isStep = true

end Visit

/-! ## Faults -/

/-- The faults that calls meet, one entry for each connecting and each execution. -/
def faultsOf : List (Option String) → List Outcome → List Call → List (Option String)
  | _, _, [] => []
  | connects, outcomes, .connect :: calls =>
    connects.headD none :: faultsOf (connects.drop 1) outcomes calls
  | connects, outcomes, .execute _ _ :: calls =>
    (outcomes.headD {}).error :: faultsOf connects (outcomes.drop 1) calls
  | connects, outcomes, _ :: calls => faultsOf connects outcomes calls

theorem faultsOf_append (connects : List (Option String)) (outcomes : List Outcome)
    (first second : List Call) : faultsOf connects outcomes (first ++ second) =
      faultsOf connects outcomes first ++ faultsOf (connects.drop (first.countP Call.isConnect))
        (outcomes.drop (first.countP Call.isExecute)) second := by
  induction first generalizing connects outcomes with
  | nil => rfl
  | cons c first ih =>
    cases c <;>
      simp [faultsOf, ih, List.countP_cons, Call.isConnect, Call.isExecute]

/-- What an operation does about faults: the first one is the last, and the operation is refused
with just that fault. -/
def Surfaces : List (Option String) → Result α → Prop
  | [], _ => True
  | none :: faults, r => Surfaces faults r
  | some text :: faults, r => faults = [] ∧ r = .error (.driver text)

theorem Surfaces.append {first second : List (Option String)} {a : α} {r : Result β}
    (h : Surfaces first (.ok a : Result α)) (h' : Surfaces second r) :
    Surfaces (first ++ second) r := by
  induction first with
  | nil => exact h'
  | cons fault first ih =>
    cases fault with
    | none => exact ih h
    | some text => cases h.2

/-- A refusal is the same whatever was to be computed. -/
theorem Surfaces.error {faults : List (Option String)} {e : Failure}
    (h : Surfaces faults (.error e : Result α)) : Surfaces faults (.error e : Result β) := by
  induction faults with
  | nil => trivial
  | cons fault faults ih =>
    cases fault with
    | none => exact ih h
    | some text =>
      obtain ⟨hlast, he⟩ := h
      cases he
      exact ⟨hlast, rfl⟩

namespace Link

/-- The faults that calls meet from here on. -/
def faults (l : Link) (calls : List Call) : List (Option String) :=
  faultsOf l.connects l.outcomes calls

end Link

/-- From one state of the link to a later one these calls were made, and each took its share of the
script. -/
structure Ran (l : Link) (made : List Call) (later : Link) : Prop where
  calls : later.calls = l.calls ++ made
  connects : later.connects = l.connects.drop (made.countP Call.isConnect)
  outcomes : later.outcomes = l.outcomes.drop (made.countP Call.isExecute)

namespace Ran

variable {l m n : Link} {first second : List Call}

theorem refl (l : Link) : Ran l [] l := ⟨by simp, rfl, rfl⟩

theorem trans (h : Ran l first m) (h' : Ran m second n) : Ran l (first ++ second) n where
  calls := by rw [h'.calls, h.calls, List.append_assoc]
  connects := by rw [h'.connects, h.connects, List.drop_drop, List.countP_append]
  outcomes := by rw [h'.outcomes, h.outcomes, List.drop_drop, List.countP_append]

theorem faults (h : Ran l first m) :
    l.faults (first ++ second) = l.faults first ++ m.faults second := by
  unfold Link.faults
  rw [faultsOf_append, h.connects, h.outcomes]

/-- Calls that neither connect nor execute take nothing of the script. -/
theorem note (l : Link) {c : Call} (hc : c.isConnect = false) (hx : c.isExecute = false) :
    Ran l [c] (l.note c) := by
  refine ⟨rfl, ?_, ?_⟩
  · simp [Link.note, hc]
  · simp [Link.note, hx]

end Ran

/-! ## Work on an open cursor -/

/-- The step only executes and fetches, and a fault ends it. -/
def OnCursor (x : LinkStep α) : Prop := ∀ session, ∃ steps : List Call,
  (∀ c ∈ steps, c.isStep = true) ∧ Ran session.store steps (x.run session).2.store ∧
    Surfaces (session.store.faults steps) (x.run session).1

namespace OnCursor

theorem of_store_eq {x : LinkStep α} (h : ∀ session, (x.run session).2.store = session.store) :
    OnCursor x := by
  intro session
  refine ⟨[], by simp, ?_, trivial⟩
  rw [h session]
  exact Ran.refl _

theorem pure (a : α) : OnCursor (Pure.pure a : LinkStep α) := of_store_eq fun _ => rfl

theorem ofResult (r : Result α) : OnCursor (Step.ofResult r : LinkStep α) :=
  of_store_eq fun _ => rfl

theorem look (f : Link → Result α) : OnCursor (Step.look f) := of_store_eq fun _ => rfl

theorem log (e : Log.Event) : OnCursor (Step.log e : LinkStep Unit) :=
  of_store_eq fun session => Step.run_log_store e session

theorem bind {x : LinkStep α} {f : α → LinkStep β} (hx : OnCursor x) (hf : ∀ a, OnCursor (f a)) :
    OnCursor (x >>= f) := by
  intro session
  obtain ⟨first, hsteps, hran, hfault⟩ := hx session
  rw [Step.run_bind]
  rcases hr : x.run session with ⟨e | a, later⟩
  · rw [hr] at hran hfault
    exact ⟨first, hsteps, hran, hfault.error⟩
  · rw [hr] at hran hfault
    obtain ⟨second, hsteps', hran', hfault'⟩ := hf a later
    refine ⟨first ++ second, ?_, hran.trans hran', ?_⟩
    · intro c hc
      rcases List.mem_append.mp hc with hc | hc
      · exact hsteps c hc
      · exact hsteps' c hc
    · rw [hran.faults]
      exact hfault.append hfault'

theorem send (s : Statement) : OnCursor (LinkStep.send s) := by
  intro session
  refine ⟨[.execute s.sql s.params], by simp [Call.isStep], ?_, ?_⟩
  · unfold LinkStep.send Step.run ExceptT.run
    dsimp only
    split <;> exact ⟨rfl, rfl, rfl⟩
  · unfold LinkStep.send Step.run ExceptT.run Link.faults
    dsimp only [faultsOf, Link.note]
    split
    · rename_i text h
      rw [h]
      exact ⟨rfl, rfl⟩
    · rename_i h
      rw [h]
      trivial

theorem execute (s : Statement) : OnCursor (LinkStep.execute s) := bind (send s) fun _ => log _

theorem fetchOne : OnCursor LinkStep.fetchOne := by
  intro session
  refine ⟨[.fetchOne], by simp [Call.isStep], ?_, trivial⟩
  unfold LinkStep.fetchOne
  rw [Step.run_change]
  dsimp only
  split <;> exact ⟨rfl, rfl, rfl⟩

theorem fetchRecords : OnCursor LinkStep.fetchRecords := by
  intro session
  exact ⟨[.fetchAll], by simp [Call.isStep], ⟨rfl, rfl, rfl⟩, trivial⟩

end OnCursor

/-! ## One visit -/

namespace Link

/-- The link after an attempt to connect. -/
def tried (l : Link) : Link := { l.note .connect with connects := l.connects.drop 1 }

/-- The link with a fresh cursor on a new connection. -/
def opened (l : Link) : Link := { l.tried.note .cursor with current := {} }

/-- The link after the cursor and the connection are closed. -/
def closed (l : Link) (committed : Bool) : Link :=
  (if committed then (l.note .closeCursor).note .commit else l.note .closeCursor).note .close

theorem ran_tried (l : Link) : Ran l [.connect] l.tried := ⟨rfl, rfl, rfl⟩

theorem ran_opened (l : Link) : Ran l [.connect, .cursor] l.opened := by
  have hcursor : Ran l.tried [.cursor] l.opened := ⟨rfl, rfl, rfl⟩
  exact l.ran_tried.trans hcursor

theorem ran_closed (l : Link) (committed : Bool) :
    Ran l (.closeCursor :: (if committed then [.commit] else []) ++ [.close])
      (l.closed committed) := by
  have hclose := Ran.note l (c := .closeCursor) rfl rfl
  cases committed with
  | false => exact hclose.trans (Ran.note _ (c := .close) rfl rfl)
  | true =>
    have hcommit := Ran.note (l.note .closeCursor) (c := .commit) rfl rfl
    exact hclose.trans (hcommit.trans (Ran.note _ (c := .close) rfl rfl))

end Link

variable {commits : Bool} {body : LinkStep α} {session : Session Link}

theorem run_closing {step : LinkStep α} {after : Link → Link} :
    (LinkStep.closing step after).run session =
      ((step.run session).1,
        { (step.run session).2 with store := after (step.run session).2.store }) := rfl

theorem run_connect (session : Session Link) : LinkStep.connect.run session =
    (match session.store.connects.headD none with
      | some text => .error (.driver text)
      | none => .ok (), { session with store := session.store.tried }) := by
  unfold LinkStep.connect Step.run ExceptT.run Link.tried
  rcases session with ⟨⟨_ | ⟨_ | text, connects⟩, _, _, _, _⟩, _⟩ <;> rfl

/-- A refused connection is reported as the driver words it. -/
theorem run_unit_of_refused {text : String} (h : session.store.connects.headD none = some text) :
    (LinkStep.unit commits body).run session =
      (.error (.driver text), { session with store := session.store.tried }) := by
  unfold LinkStep.unit
  have hc := run_connect session
  rw [h] at hc
  exact Step.run_bind_of_error hc

/-- On an open connection the body decides the outcome and the commit, and closing is sure. -/
theorem run_unit_of_connected (h : session.store.connects.headD none = none) :
    (LinkStep.unit commits body).run session =
      (let (r, later) := body.run { session with store := session.store.opened }
       (r, { later with store := later.store.closed (commits && r.isOk) })) := by
  unfold LinkStep.unit
  have hc := run_connect session
  rw [h] at hc
  have hcursor : LinkStep.openCursor.run { session with store := session.store.tried } =
      (.ok (), { session with store := session.store.opened }) := rfl
  rw [Step.run_bind_of_ok hc, run_closing, Step.run_bind_of_ok hcursor, Step.run_bind, run_closing]
  rcases body.run { session with store := session.store.opened } with ⟨e | a, later⟩
  · cases commits <;> rfl
  · cases commits <;> rfl

/-- The calls of the body are made between those of opening and closing. -/
theorem run_unit_of_body {l : Link} {j : Log.Journal} {steps : List Call} {r : Result α}
    {later : Session Link} (commits : Bool) (h : l.connects.headD none = none)
    (hbody : body.run ⟨l.opened, j⟩ = (r, later)) (hran : Ran l.opened steps later.store) :
    (LinkStep.unit commits body).run ⟨l, j⟩ =
        (r, { later with store := later.store.closed (commits && r.isOk) }) ∧
      Ran l (Visit.done steps (commits && r.isOk)).calls
        (later.store.closed (commits && r.isOk)) := by
  have hclosed := later.store.ran_closed (commits && r.isOk)
  refine ⟨?_, l.ran_opened.trans (hran.trans hclosed)⟩
  rw [run_unit_of_connected h, hbody]

/-- A visit does what its body does, and commits if it should and the body succeeded. -/
theorem unit_visit (hb : OnCursor body) (commits : Bool) (session : Session Link) :
    ∃ v : Visit, v.Proper ∧
      Ran session.store v.calls ((LinkStep.unit commits body).run session).2.store ∧
      Surfaces (session.store.faults v.calls) ((LinkStep.unit commits body).run session).1 ∧
      v.committed = (commits && ((LinkStep.unit commits body).run session).1.isOk) := by
  cases h : session.store.connects.headD none with
  | some text =>
    rw [run_unit_of_refused h]
    refine ⟨.refused, trivial, session.store.ran_tried, ?_, ?_⟩
    · show Surfaces [session.store.connects.headD none] _
      rw [h]
      exact ⟨rfl, rfl⟩
    · simp [Visit.committed, Except.isOk, Except.toBool]
  | none =>
    obtain ⟨steps, hsteps, hran, hfault⟩ := hb { session with store := session.store.opened }
    rcases hr : body.run { session with store := session.store.opened } with ⟨r, later⟩
    rw [hr] at hran hfault
    obtain ⟨hunit, hcalls⟩ := run_unit_of_body commits h hr hran
    rw [hunit]
    refine ⟨.done steps (commits && r.isOk), hsteps, hcalls, ?_, rfl⟩
    -- neither opening nor closing meets a fault
    have hopen : session.store.faults [.connect, .cursor] = [none] := by
      show [session.store.connects.headD none] = _
      rw [h]
    have hclose : later.store.faults (.closeCursor ::
        (if (commits && r.isOk) = true then [.commit] else []) ++ [.close]) = [] := by
      split <;> rfl
    show Surfaces (session.store.faults ([.connect, .cursor] ++ (steps ++ _))) r
    rw [session.store.ran_opened.faults, hran.faults, hopen, hclose, List.append_nil]
    exact hfault

end EntityApi.Sql
