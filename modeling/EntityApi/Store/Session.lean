import EntityApi.Filter.Condition
import EntityApi.Log

/-!
Steps over a store. A step may be refused, and whatever it did to the store and the journal before
that stays done. `Access` lists what a store must offer to be served.
-/

namespace EntityApi

structure Session (σ : Type) where
  store : σ
  journal : Log.Journal

abbrev Step (σ α : Type) := ExceptT Failure (StateM (Session σ)) α

namespace Step

variable {σ α : Type}

def run (s : Step σ α) (session : Session σ) : Result α × Session σ := ExceptT.run s session

def ofResult (r : Result α) : Step σ α := fun session => (r, session)

/-- A step that only looks at the store. -/
def look (f : σ → Result α) : Step σ α := fun session => (f session.store, session)

/-- A step that cannot be refused. -/
def change (f : σ → α × σ) : Step σ α := fun session =>
  let (a, store) := f session.store
  (.ok a, { session with store := store })

/-- A step that changes the store unless it is refused. -/
def update (f : σ → Result σ) : Step σ Unit := fun session =>
  match f session.store with
  | .ok store => (.ok (), { session with store := store })
  | .error e => (.error e, session)

def log (e : Log.Event) : Step σ Unit := fun session =>
  match session.journal.record e with
  | .ok journal => (.ok (), { session with journal := journal })
  | .error f => (.error f, session)

end Step

structure Access (σ : Type) where
  findByKey : Value → Step σ (Option Row)
  /-- Conditions, ordering clauses, offset and limit; the count is that of all matching records. -/
  findAndCount : List Condition → List Value → Value → Value → Step σ (Int × List Row)
  create : Row → Step σ Row
  /-- The number of changed records, if the store reports it. -/
  updateByKey : Value → Row → Step σ Value

end EntityApi
