import EntityApi.Sql.Statement
import EntityApi.Store.Session
import EntityApi.Text.Utf8

/-!
The link to a database: what the database will answer, and the calls made so far. Connecting and
executing may fail; closing never does. `unit` is the one way in which connections are used: it
opens a connection and a cursor, closes the cursor whatever happens, commits only after that and
only if all went well, and closes the connection last.
-/

namespace EntityApi.Sql

/-- What the execution of a statement leads to. -/
structure Outcome where
  columns : Option (List String) := none
  rows : List (List Value) := []
  rowCount : Value := .int (-1)
  lastKey : Value := .null
  error : Option String := none

inductive Call where
  | connect
  | cursor
  | execute (sql : String) (params : List (String × Value))
  | fetchOne
  | fetchAll
  | closeCursor
  | commit
  | close

structure Link where
  /-- The failures of the coming attempts to connect; an attempt past the end succeeds. -/
  connects : List (Option String) := []
  /-- The outcomes of the coming executions; one past the end has no rows. -/
  outcomes : List Outcome := []
  /-- Whether cursors tell the key that the last insertion generated. -/
  reportsKeys : Bool := true
  /-- What the last execution left on the cursor. -/
  current : Outcome := {}
  calls : List Call := []

namespace Link

/-- Notes a call. -/
def note (l : Link) (c : Call) : Link := { l with calls := l.calls ++ [c] }

end Link

abbrev LinkStep (α : Type) := Step Link α

namespace LinkStep

def noting (c : Call) : LinkStep Unit := .change fun l => ((), l.note c)

def connect : LinkStep Unit := fun session =>
  let l := session.store.note .connect
  match l.connects with
  | some text :: rest =>
    (.error (.driver text), { session with store := { l with connects := rest } })
  | none :: rest => (.ok (), { session with store := { l with connects := rest } })
  | [] => (.ok (), { session with store := l })

/-- Opens a cursor, on which nothing has been executed. -/
def openCursor : LinkStep Unit := .change fun l => ((), { l.note .cursor with current := {} })

/-- Runs a statement; a failing one leaves no trace but the call. -/
def send (s : Statement) : LinkStep Unit := fun session =>
  let l := session.store.note (.execute s.sql s.params)
  let outcome := l.outcomes.headD {}
  let l := { l with outcomes := l.outcomes.drop 1 }
  match outcome.error with
  | some text => (.error (.driver text), { session with store := l })
  | none => (.ok (), { session with store := { l with current := outcome } })

/-- The event that reports a statement which was run. -/
def sent (s : Statement) : Log.Event where
  name := "sql"
  level := Log.debug
  fields := [("sql", .text s.sql), ("params", .map (s.params.map fun (k, v) => (.text k, v))),
    ("ms", .int 0)]

def execute (s : Statement) : LinkStep Unit := do
  send s
  Step.log (sent s)

def fetchOne : LinkStep (Option (List Value)) := .change fun l =>
  let l := l.note .fetchOne
  match l.current.rows with
  | [] => (none, l)
  | row :: rest => (some row, { l with current := { l.current with rows := rest } })

/-- A value as records hold it: decimals become binary numbers, bytes become text. -/
def plain : Value → Result Value
  | .decimal d =>
    if d.isSignaling then mishap .badValue "cannot convert signaling NaN to float"
    else .ok (.real d.toBinary64)
  | .bytes b => .ok (.text (Text.decodeUtf8 b))
  | v => .ok v

/-- A fetched row as a record, by the names of the columns. -/
def recordOf (columns : List String) (row : List Value) : Result Row := do
  let values ← (columns.zip row).mapM fun (name, v) => do return (Value.text name, ← plain v)
  return Entries.ofList values

/-- The remaining rows of the cursor. -/
def fetchRecords : LinkStep (List Row) := fun session =>
  let l := session.store.note .fetchAll
  let records := l.current.rows.mapM (recordOf (l.current.columns.getD []))
  (records, { session with store := { l with current := { l.current with rows := [] } } })

/-- Does the step and then, whether or not it was refused, the closing change. -/
def closing {α : Type} (step : LinkStep α) (after : Link → Link) : LinkStep α := fun session =>
  let (r, session) := step session
  (r, { session with store := after session.store })

/-- One connection with one cursor on it. -/
def unit {α : Type} (commits : Bool) (body : LinkStep α) : LinkStep α := do
  connect
  closing (do
      openCursor
      let a ← closing body (·.note .closeCursor)
      if commits then noting .commit
      return a)
    (·.note .close)

end LinkStep

end EntityApi.Sql
