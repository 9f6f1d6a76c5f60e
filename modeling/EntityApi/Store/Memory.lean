import EntityApi.Sql.Statement
import EntityApi.Store.Session

/-!
A store that keeps its records in a list. A record is addressed by the first row that holds its key,
and generated keys count up from the largest whole-number key that the store started with.
-/

namespace EntityApi

structure MemoryStore where
  primaryKey : String
  rows : List Row
  autoIncrement : Bool
  nextKey : Int
  /-- Whether an update answers with the number of changed records. -/
  reportsCount : Bool

namespace MemoryStore

def keyOf (primaryKey : String) (row : Row) : Value := Value.field row primaryKey

/-- The largest of the whole-number keys of the rows, or zero if there is none. -/
def largestKey (primaryKey : String) (rows : List Row) : Int :=
  ((rows.filterMap fun row => (keyOf primaryKey row).index?).max?).getD 0

def ofRows (primaryKey : String) (rows : List Row) (autoIncrement reportsCount : Bool) : MemoryStore where
  primaryKey := primaryKey
  rows := rows
  autoIncrement := autoIncrement
  nextKey := largestKey primaryKey rows + 1
  reportsCount := reportsCount

def empty (primaryKey : String) : MemoryStore := ofRows primaryKey [] true true

def find (s : MemoryStore) (key : Value) : Option Row :=
  s.rows.find? fun row => keyOf s.primaryKey row == key

/-! ## Listing -/

/-- The rows that meet all conditions. -/
def matching (conditions : List Condition) : List Row → Result (List Row)
  | [] => .ok []
  | row :: rows => do
    if ← Condition.allHold conditions row then return row :: (← matching conditions rows)
    else matching conditions rows

/-- Whether two sort keys can be compared; a missing value can always be. -/
def comparable (a b : Value) : Result Unit :=
  if a.isNull || b.isNull || a == b then .ok () else do
    let _ ← Value.before true a b
    return ()

def allComparable : List Value → Result Unit
  | [] => .ok ()
  | a :: as => do
    as.forM (comparable a)
    allComparable as

/-- Whether one sort key comes before another; missing values come last. -/
def keyBefore (a b : Value) : Bool :=
  match a.isNull, b.isNull with
  | true, _ => false
  | false, true => true
  | false, false => (Value.before true a b).toOption.getD false

/-- Whether a row may stand before another under one ordering clause. -/
def inOrder (direction : Sql.Direction) (a b : Value × Row) : Bool :=
  match direction with
  | .ascending => !keyBefore b.1 a.1
  | .descending => !keyBefore a.1 b.1

/-- Sorts by one column. Rows with equal keys stay as they are. -/
def sortBy (column : Value) (direction : Sql.Direction) (rows : List Row) : Result (List Row) := do
  let keyed ← rows.mapM fun row => do return (← Condition.columnOf row column, row)
  allComparable (keyed.map Prod.fst)
  return (keyed.mergeSort (inOrder direction)).map Prod.snd

/-- Sorts by one clause after another; the first clause given is the last applied and so decides. -/
def sortAll : List Value → List Row → Result (List Row)
  | [], rows => .ok rows
  | clause :: clauses, rows => do
    let rows ← sortAll clauses rows
    let (column, direction) ← Sql.orderParts clause
    sortBy column (← Sql.Direction.ofValue direction) rows

/-- A position counted from the front, or from the back if negative, kept inside the list. -/
def clampIndex (length : Nat) (n : Int) : Nat :=
  let n := if n < 0 then n + length else n
  min n.toNat length

def slice {α : Type} (first last : Int) (l : List α) : List α :=
  let start := clampIndex l.length first
  (l.take (clampIndex l.length last)).drop start

/-- The part of the rows that starts at the offset and has at most `limit` rows. -/
def page (offset limit : Value) (rows : List Row) : Result (List Row) :=
  match offset.index?, limit.index? with
  | some o, some l => .ok (slice o (o + l) rows)
  | _, _ => mishap .badType "slice indices must be integers"

def list (s : MemoryStore) (conditions : List Condition) (order : List Value) (offset limit : Value) :
    Result (Int × List Row) := do
  let hits ← matching conditions s.rows
  let sorted ← sortAll order hits
  return ((hits.length : Nat), ← page offset limit sorted)

/-! ## Writing -/

/-- Appends a record; one without a key gets the next generated one. -/
def create (s : MemoryStore) (fields : Row) : Row × MemoryStore :=
  if (keyOf s.primaryKey fields).isNull && s.autoIncrement then
    let row := Entries.put fields (.text s.primaryKey) (.int s.nextKey)
    (row, { s with rows := s.rows ++ [row], nextKey := s.nextKey + 1 })
  else (fields, { s with rows := s.rows ++ [fields] })

/-- Overlays the first row that holds the key, and tells whether there is one. -/
def overlay (primaryKey : String) (key : Value) (fields : Row) : List Row → Bool × List Row
  | [] => (false, [])
  | row :: rows =>
    if keyOf primaryKey row == key then (true, Entries.merge row fields :: rows)
    else
      let (found, rows) := overlay primaryKey key fields rows
      (found, row :: rows)

def update (s : MemoryStore) (key : Value) (fields : Row) : Value × MemoryStore :=
  let (found, rows) := overlay s.primaryKey key fields s.rows
  (if s.reportsCount then .int (if found then 1 else 0) else .null, { s with rows := rows })

def access : Access MemoryStore where
  findByKey key := .look fun s => .ok (s.find key)
  findAndCount conditions order offset limit := .look fun s => s.list conditions order offset limit
  create fields := .change fun s => s.create fields
  updateByKey key fields := .change fun s => s.update key fields

end MemoryStore

end EntityApi
