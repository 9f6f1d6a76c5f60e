import EntityApi.Like
import EntityApi.Value.Compare
import EntityApi.Value.Shown

/-!
Conditions on records: a column, a comparison and an operand. `Condition.holds` decides a condition
on one record. A null or missing column meets no condition; a moment without an offset is taken as
universal time; a text operand meets a value of another kind if it equals the value's text.
-/

namespace EntityApi

inductive Comparison where
  | equal
  | like
  | between
  | unknown (name : Value)

namespace Comparison

def ofValue : Value → Comparison
  | .text "eq" => equal
  | .text "like" => like
  | .text "between" => between
  | v => unknown v

def toValue : Comparison → Value
  | equal => .text "eq"
  | like => .text "like"
  | between => .text "between"
  | unknown v => v

end Comparison

structure Condition where
  column : Value
  comparison : Comparison
  operand : Value

namespace Condition

/-- Clock readings are compared as instants. -/
def asInstant : Value → Value
  | .moment m => .moment m.orUtc
  | v => v

/-- The signs of a pattern: the characters of a text, or a series of texts. -/
def signsOf (pattern : Value) : Result (List (List Char)) :=
  match pattern.items? with
  | none => mishap .badType ("a pattern is a text, not " ++ pattern.kind)
  | some items => items.mapM fun item =>
    match item with
    | .text s => .ok s.toList
    | v => mishap .badType ("a sign of a pattern is a text, not " ++ v.kind)

/-- The two parts of a range. -/
def boundsOf (range : Value) : Result (Value × Value) :=
  match range.items? with
  | some [low, high] => .ok (low, high)
  | some _ => mishap .badValue "a range has two bounds"
  | none => mishap .badType ("a range is a pair, not " ++ range.kind)

/-- Whether `low ≤ v ≤ high`. A value that has no order with the bounds is outside. -/
def inRange (low high v : Value) : Result Bool :=
  let r := do
    if ← Value.before false low v then Value.before false v high else return false
  match r with
  | .error (.accident .badType _) => .ok false
  | r => r

def holdsOf (c : Condition) (actual : Value) : Result Bool :=
  match c.comparison with
  | .equal => do
    match c.operand with
    | .text wanted => if actual.isText then return actual == c.operand else return (← actual.text?) == wanted
    | wanted => return actual == wanted
  | .like => do
    let signs ← signsOf c.operand
    return Like.accepts (Like.piecesOf signs) (← actual.text?).toList
  | .between => do
    let (low, high) ← boundsOf c.operand
    inRange low high actual
  | .unknown name => do refuse (.unsupportedOp (← name.text?))

/-- The value of a column, where a column must be something that can name one. -/
def columnOf (row : Row) (column : Value) : Result Value :=
  if column.isKey then .ok (Value.lookup row column)
  else mishap .badType ("unhashable type: '" ++ column.kind ++ "'")

def holds (c : Condition) (row : Row) : Result Bool := do
  let actual := asInstant (← columnOf row c.column)
  if actual.isNull then return false
  c.holdsOf actual

/-- Whether all conditions hold, tried in order up to the first that does not. -/
def allHold : List Condition → Row → Result Bool
  | [], _ => .ok true
  | c :: cs, row => do if ← c.holds row then allHold cs row else return false

end Condition

end EntityApi
