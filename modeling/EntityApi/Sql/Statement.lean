import EntityApi.Filter.Condition
import EntityApi.Text.UpperCase
import EntityApi.Value.Whole

/-!
Statements for one table, with named placeholders. Values travel as parameters and never enter the
text. Column names do enter it, so they must be columns of the table; so do sort directions, which
must be one of two words.
-/

namespace EntityApi.Sql

structure Statement where
  sql : String
  params : List (String × Value)

/-- A condition on one column as a piece of a statement, with its own parameters. -/
structure Clause where
  column : String
  comparison : Comparison
  place : String
  params : List (String × Value)

namespace Clause

/-- The names of the placeholders of a clause. -/
def binds (comparison : Comparison) (place : String) : List String :=
  match comparison with
  | .between => [place ++ "_lo", place ++ "_hi"]
  | _ => [place]

def text (c : Clause) : String :=
  match c.comparison with
  | .like => c.column ++ " LIKE :" ++ c.place ++ " ESCAPE '!'"
  | .between => c.column ++ " BETWEEN :" ++ c.place ++ "_lo AND :" ++ c.place ++ "_hi"
  | _ => c.column ++ " = :" ++ c.place

/-- The values for the placeholders: the operand, or the bounds of a range. -/
def operands (c : Condition) : Result (List Value) :=
  match c.comparison with
  | .between =>
    match c.operand.items? with
    | some items => .ok items
    | none => mishap .badType ("'" ++ c.operand.kind ++ "' object is not iterable")
  | _ => .ok [c.operand]

def ofCondition (c : Condition) (place : String) : Result Clause := do
  match c.comparison with
  | .unknown name =>
    if name.isKey then refuse (.unsupportedOp (← name.text?))
    else mishap .badType ("unhashable type: '" ++ name.kind ++ "'")
  | _ =>
    let column ← c.column.text?
    let values ← operands c
    return ⟨column, c.comparison, place, (binds c.comparison place).zip values⟩

end Clause

/-- The clauses of conditions, numbered from `start`. -/
def clausesFrom : Nat → List Condition → Result (List Clause)
  | _, [] => .ok []
  | start, c :: cs => do
    return (← Clause.ofCondition c ("p_" ++ toString start)) :: (← clausesFrom (start + 1) cs)

/-- The clauses as one condition; no clause at all is the empty text. -/
def conjunction (clauses : List Clause) : Statement where
  sql := " AND ".intercalate (clauses.map Clause.text)
  params := clauses.flatMap Clause.params

def whereOf (conditions : List Condition) : Result Statement := do
  return conjunction (← clausesFrom 0 conditions)

structure Table where
  name : Value
  columns : List String

inductive Direction where
  | ascending
  | descending
  deriving Repr, DecidableEq

namespace Direction

def word : Direction → String
  | ascending => "ASC"
  | descending => "DESC"

def ofWord? (s : String) : Option Direction :=
  if s == "ASC" then some ascending else if s == "DESC" then some descending else none

/-- The direction that a value names in any case. -/
def ofValue (v : Value) : Result Direction := do
  let given ← v.text?
  match ofWord? (Text.upper given) with
  | some d => return d
  | none => refuse (.invalidArgument (.direction given))

end Direction

/-- The column and the direction of an ordering clause. -/
def orderParts (clause : Value) : Result (Value × Value) :=
  match clause.items? with
  | some [column, direction] => .ok (column, direction)
  | some _ => mishap .badValue "an ordering clause has two parts"
  | none => mishap .badType ("cannot unpack non-iterable " ++ clause.kind ++ " object")

namespace Table

/-- The column of the table with this name. -/
def column (t : Table) (name : Value) : Result String := do
  match t.columns.find? (fun c => Value.text c == name) with
  | some c => return c
  | none => refuse (.invalidArgument (.unknownColumn (← name.text?) (← t.name.text?)))

def columnList (t : Table) : String := ", ".intercalate t.columns

/-- The condition of a statement, all of whose columns must belong to the table. -/
def whereClause (t : Table) (conditions : List Condition) : Result Statement := do
  for c in conditions do
    let _ ← t.column c.column
  whereOf conditions

def orderClause (t : Table) (order : List Value) : Result String := do
  let parts ← order.mapM fun clause => do
    let (column, direction) ← orderParts clause
    let d ← Direction.ofValue direction
    return (← t.column column) ++ " " ++ d.word
  return ", ".intercalate parts

/-- A text after its lead, or nothing if there is no text. -/
def suffix (lead text : String) : String := if text.isEmpty then "" else lead ++ text

/-- The decimal form of the whole number that a value denotes. -/
def wholeNumber (v : Value) : Result String := do Value.intText? (← v.whole?)

/-- A keyword with its number, unless there is no number. -/
def numberSuffix (keyword : String) (given : Bool) (v : Value) : Result String :=
  if given then do return " " ++ keyword ++ " " ++ (← wholeNumber v) else .ok ""

def select (t : Table) (conditions : List Condition) (order : List Value) (limit offset : Value) :
    Result Statement := do
  let name ← t.name.text?
  let w ← t.whereClause conditions
  let sorting ← t.orderClause order
  let limitText ← numberSuffix "LIMIT" (!limit.isNull) limit
  let offsetText ← numberSuffix "OFFSET" offset.truthy offset
  return ⟨"SELECT " ++ t.columnList ++ " FROM " ++ name ++ suffix " WHERE " w.sql ++
    suffix " ORDER BY " sorting ++ limitText ++ offsetText, w.params⟩

def count (t : Table) (conditions : List Condition) : Result Statement := do
  let name ← t.name.text?
  let w ← t.whereClause conditions
  return ⟨"SELECT COUNT(*) FROM " ++ name ++ suffix " WHERE " w.sql, w.params⟩

def selectByKey (t : Table) (key : Value) : Result String := do
  let name ← t.name.text?
  return "SELECT " ++ t.columnList ++ " FROM " ++ name ++ " WHERE " ++ (← t.column key) ++
    " = :key LIMIT 1"

/-- Placeholder names for as many values, in order. -/
def valuePlaces (count : Nat) : List String := (List.range count).map fun i => "v_" ++ toString i

/-- The columns that a record's names stand for, and the values with their placeholders. -/
def assignments (t : Table) (fields : Row) : Result (List String × List (String × Value)) := do
  let names ← (Entries.keys fields).mapM t.column
  return (names, (valuePlaces names.length).zip (Entries.values fields))

def insert (t : Table) (fields : Row) : Result Statement := do
  let (names, params) ← t.assignments fields
  let name ← t.name.text?
  if names.isEmpty then return ⟨"INSERT INTO " ++ name ++ " DEFAULT VALUES", []⟩
  let places := ", ".intercalate ((valuePlaces names.length).map (":" ++ ·))
  return ⟨"INSERT INTO " ++ name ++ " (" ++ ", ".intercalate names ++ ") VALUES (" ++ places ++ ")",
    params⟩

def update (t : Table) (keyColumn key : Value) (fields : Row) : Result Statement := do
  let (names, params) ← t.assignments fields
  let name ← t.name.text?
  if names.isEmpty then refuse (.invalidArgument (.nothingToUpdate name))
  let sets := names.zipWith (fun n place => n ++ " = :" ++ place) (valuePlaces names.length)
  return ⟨"UPDATE " ++ name ++ " SET " ++ ", ".intercalate sets ++ " WHERE " ++
    (← t.column keyColumn) ++ " = :key", params ++ [("key", key)]⟩

end Table

end EntityApi.Sql
