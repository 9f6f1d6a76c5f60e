import EntityApi.Sql.Link

/-!
A store whose records are the rows of a table. A generated key is read back on the cursor of its
insertion, before the commit: through the key query if there is one, else from the cursor. Where
neither is possible the insertion is refused before it runs.
-/

namespace EntityApi.Sql

structure Store where
  table : Table
  primaryKey : String
  /-- The statement that reads back a generated key. An empty one is none. -/
  keyQuery : Option String

namespace Store

open LinkStep

def find (s : Store) (key : Value) : LinkStep (Option Row) := do
  let sql ← Step.ofResult (s.table.selectByKey (.text s.primaryKey))
  unit false do
    execute ⟨sql, [("key", key)]⟩
    return (← fetchRecords).head?

/-- The number in the first column of a fetched row. -/
def countOf (row : Option (List Value)) : Result Int :=
  match row with
  | none => mishap .badType "'NoneType' object is not subscriptable"
  | some [] => mishap .badIndex "list index out of range"
  | some (v :: _) => v.whole?

/-- Counts and selects on one connection. Both statements are made before it is opened. -/
def list (s : Store) (conditions : List Condition) (order : List Value) (offset limit : Value) :
    LinkStep (Int × List Row) := do
  let counting ← Step.ofResult (s.table.count conditions)
  let selecting ← Step.ofResult (s.table.select conditions order limit offset)
  unit false do
    execute counting
    let total ← Step.ofResult (countOf (← fetchOne))
    execute selecting
    return (total, ← fetchRecords)

/-- The key query, unless it is empty. -/
def keyQuery? (s : Store) : Option String := s.keyQuery.filter (!·.isEmpty)

/-- The key generated by the insertion that was just run; null if none was reported. -/
def generatedKey (s : Store) : LinkStep Value := do
  match s.keyQuery? with
  | none => Step.look fun l => .ok l.current.lastKey
  | some query => do
    execute ⟨query, []⟩
    match ← fetchOne with
    | some (v :: _) => return v
    | _ => return .null

/-- Refuses an insertion whose key could not be told. -/
def checkKeys (s : Store) (key : Value) : LinkStep Unit := Step.look fun l =>
  if key.isNull && s.keyQuery?.isNone && !l.reportsKeys then do
    refuse (.outage (.keysNotReported (← s.table.name.text?)))
  else .ok ()

/-- Inserts a record and gives its key. -/
def insert (s : Store) (fields : Row) : LinkStep Value := do
  let inserting ← Step.ofResult (s.table.insert fields)
  let key := Value.field fields s.primaryKey
  unit true do
    checkKeys s key
    execute inserting
    if key.isNull then
      let key ← generatedKey s
      if key.isNull then
        Step.ofResult do refuse (.outage (.noKeyReported (← s.table.name.text?)))
      return key
    else return key

/-- Inserts a record and reads it back; what was passed stands in for a record that is not found. -/
def create (s : Store) (fields : Row) : LinkStep Row := do
  let key ← s.insert fields
  match ← s.find key with
  | some record => return record
  | none => return Entries.put fields (.text s.primaryKey) key

/-- The count of changed rows, where a driver that does not know it reports none or less than zero. -/
def affected (rowCount : Value) : Result Value :=
  if rowCount.isNull then .ok (.int 0) else do
    if ← Value.before false (.int 0) rowCount then return rowCount else return .int 0

def update (s : Store) (key : Value) (fields : Row) : LinkStep Value := do
  if fields.isEmpty then return .int 0
  let updating ← Step.ofResult (s.table.update (.text s.primaryKey) key fields)
  let rowCount ← unit true do
    execute updating
    Step.look fun l => .ok l.current.rowCount
  Step.ofResult (affected rowCount)

def access (s : Store) : Access Link where
  findByKey := s.find
  findAndCount := s.list
  create := s.create
  updateByKey := s.update

end Store

end EntityApi.Sql
