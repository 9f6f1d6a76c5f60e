import EntityApi.Entries
import EntityApi.Number.Decimal
import EntityApi.Time.Moment

/-!
The values that descriptors, filters and records hold. Numbers of all kinds are equal when they
denote the same number, and a truth value counts as 0 or 1. Tables are equal when they hold the same
entries in any order, and sets when they hold the same members. A moment without an offset never
equals one with an offset.
-/

namespace EntityApi

inductive Value where
  | null
  | bool (b : Bool)
  | int (n : Int)
  | real (x : Binary64)
  | text (s : String)
  | moment (m : Moment)
  | day (d : Day)
  | decimal (d : Decimal)
  | bytes (b : List UInt8)
  | list (items : List Value)
  | pair (first second : Value)
  | set (members : List Value)
  | map (entries : List (Value × Value))
  deriving Inhabited

namespace Value

/-- The name of the kind of a value, as error texts give it. -/
def kind : Value → String
  | null => "NoneType"
  | bool _ => "bool"
  | int _ => "int"
  | real _ => "float"
  | text _ => "str"
  | moment _ => "datetime"
  | day _ => "date"
  | decimal _ => "Decimal"
  | bytes _ => "bytes"
  | list _ => "list"
  | pair _ _ => "tuple"
  | set _ => "set"
  | map _ => "dict"

/-- Whether a value counts as present: zero and everything empty does not. -/
def truthy : Value → Bool
  | null => false
  | bool b => b
  | int n => n != 0
  | real x => !x.isZero
  | text s => !s.isEmpty
  | moment _ => true
  | day _ => true
  | decimal d => !d.isZero
  | bytes b => !b.isEmpty
  | list items => !items.isEmpty
  | pair _ _ => true
  | set members => !members.isEmpty
  | map entries => !entries.isEmpty

/-- The exact number that a value of a numeric kind denotes. -/
def number? : Value → Option Exact
  | bool b => some (.ofInt (if b then 1 else 0))
  | int n => some (.ofInt n)
  | real x => some x.toExact
  | decimal d => some d.toExact
  | _ => none

def sameMoment (a b : Moment) : Bool :=
  a.offset.isSome == b.offset.isSome && a.instant == b.instant

mutual

def same : Value → Value → Bool
  | null, null => true
  | text a, text b => a == b
  | moment a, moment b => sameMoment a b
  | day a, day b => a.number == b.number
  | bytes a, bytes b => a == b
  | list a, list b => sameList a b
  | pair a b, pair c d => same a c && same b d
  | set a, set b => a.length == b.length && sameMembers a b
  | map a, map b => a.length == b.length && sameEntries a b
  | bool a, b => sameNumber (.ofInt (if a then 1 else 0)) b
  | int a, b => sameNumber (.ofInt a) b
  | real a, b => sameNumber a.toExact b
  | decimal a, b => sameNumber a.toExact b
  | _, _ => false

def sameNumber (a : Exact) (b : Value) : Bool :=
  match b.number? with
  | some n => a.same n
  | none => false

def sameList : List Value → List Value → Bool
  | [], [] => true
  | a :: as, b :: bs => same a b && sameList as bs
  | _, _ => false

def sameMembers : List Value → List Value → Bool
  | [], _ => true
  | a :: as, bs => bs.any (fun b => same a b) && sameMembers as bs

def sameEntries : List (Value × Value) → List (Value × Value) → Bool
  | [], _ => true
  | (k, a) :: as, bs => bs.any (fun e => same k e.1 && same a e.2) && sameEntries as bs

end

instance : BEq Value := ⟨same⟩

/-- Whether a value can be a key of a table. -/
def isKey : Value → Bool
  | list _ => false
  | set _ => false
  | map _ => false
  | pair a b => a.isKey && b.isKey
  | _ => true

/-- The parts of a value that is a series: the items of a list, the two of a pair, the members of a
set, the characters of a text, the bytes, the keys of a table. -/
def items? : Value → Option (List Value)
  | list items => some items
  | pair a b => some [a, b]
  | set members => some members
  | text s => some (s.toList.map fun c => text (String.ofList [c]))
  | bytes b => some (b.map fun x => int x.toNat)
  | map entries => some (Entries.keys entries)
  | _ => none

/-- A whole number or truth value as a number. -/
def index? : Value → Option Int
  | int n => some n
  | bool b => some (if b then 1 else 0)
  | _ => none

def isText : Value → Bool
  | text _ => true
  | _ => false

def isNull : Value → Bool
  | null => true
  | _ => false

/-- The value stored under a key, or null. -/
def lookup (entries : List (Value × Value)) (key : Value) : Value :=
  (Entries.get? entries key).getD null

/-- The value stored under a name, or null. -/
def field (entries : List (Value × Value)) (name : String) : Value := lookup entries (text name)

@[simp] theorem beq_text (a b : String) : (text a == text b) = (a == b) := by
  show same (text a) (text b) = _
  simp [same]

theorem beq_text_iff {v : Value} {s : String} : (v == text s) = true ↔ v = text s := by
  show same v (text s) = true ↔ _
  cases v <;> simp [same, sameNumber, number?]

theorem text_beq_iff {v : Value} {s : String} : (text s == v) = true ↔ text s = v := by
  show same (text s) v = true ↔ _
  cases v <;> simp [same]

@[simp] theorem beq_int (a b : Int) : (int a == int b) = (a == b) := by
  show same (int a) (int b) = _
  simp [same, sameNumber, number?, Exact.same_ofInt]

end Value

/-- A record: column names with values. -/
abbrev Row := List (Value × Value)

end EntityApi
