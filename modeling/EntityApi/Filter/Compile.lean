import EntityApi.Filter.Condition
import EntityApi.Number.Numeral
import EntityApi.Text.Blank

/-!
Filter descriptors and what they compile to. A descriptor names a value type, a column and a value
in text form. `Int` and `Float` ask for the number that the text denotes, `String` for texts that
contain it, `Date` for instants from the first to the second of two epoch-millisecond numbers, and
any other type for the text itself.
-/

namespace EntityApi

namespace Filter

/-- A whole number in plain decimal digits, with blanks around it. -/
def readInteger (s : String) : Result Int :=
  match Numeral.readPlainInteger (Text.trimChars s.toList) with
  | .ok n => .ok n
  | .error .malformed => refuse (.notInteger s)
  | .error (.tooLong digits) => mishap .badValue (
      "Exceeds the limit (4300 digits) for integer string conversion: value has " ++
      toString digits ++ " digits; use sys.set_int_max_str_digits() to increase the limit")

def malformed {α : Type} (fault : FilterFault) : Result α := refuse (.malformedFilter fault)

/-- The parts of a text between commas. -/
def splitCommas : List Char → List (List Char)
  | [] => [[]]
  | c :: s =>
    if c == ',' then [] :: splitCommas s
    else match splitCommas s with
      | part :: parts => (c :: part) :: parts
      | [] => [[c]]

def intCondition (column : Value) (value : String) : Result Condition :=
  match readInteger value with
  | .ok n => .ok ⟨column, .equal, .int n⟩
  | .error _ => do malformed (.notInteger (← column.text?) value)

def floatCondition (column : Value) (value : String) : Result Condition :=
  match Numeral.readReal? (Text.trimChars value.toList) with
  | none => do malformed (.notNumber (← column.text?) value)
  | some x =>
    if x.isFinite then .ok ⟨column, .equal, .real x⟩
    else do malformed (.notFinite (← column.text?) value)

/-- The pattern of the texts that contain `value`. -/
def containing (value : String) : String := "%" ++ Like.escape value ++ "%"

def stringCondition (column : Value) (value : String) : Result Condition :=
  .ok ⟨column, .like, .text (containing value)⟩

def dateCondition (column : Value) (value : String) : Result Condition :=
  match splitCommas value.toList with
  | [a, b] =>
    match readInteger (String.ofList a), readInteger (String.ofList b) with
    | .ok low, .ok high =>
      match Moment.ofMillis? low, Moment.ofMillis? high with
      | some l, some h => .ok ⟨column, .between, .list [.moment l, .moment h]⟩
      | _, _ => do malformed (.outOfRange (← column.text?) value)
    | _, _ => do malformed (.notMillisPair (← column.text?) value)
  | parts => do malformed (.partCount (← column.text?) parts.length)

def rawCondition (column : Value) (value : String) : Result Condition :=
  .ok ⟨column, .equal, .text value⟩

/-- The condition that a value type asks for. -/
def conditionFor (type : Value) (column : Value) (value : String) : Result Condition :=
  match type with
  | .text "Int" => intCondition column value
  | .text "Float" => floatCondition column value
  | .text "String" => stringCondition column value
  | .text "Date" => dateCondition column value
  | v =>
    if v.isKey then rawCondition column value
    else mishap .badType ("unhashable type: '" ++ v.kind ++ "'")

/-- The column of a descriptor: its key if it has one, else its name. -/
def columnOf (spec : List (Value × Value)) : Value :=
  let key := Value.field spec "column_key"
  if key.truthy then key else Value.field spec "column_name"

/-- Compiles one descriptor. The value is looked at before the column. -/
def compileOne : Value → Result Condition
  | .map spec => do
    let given := Value.field spec "value"
    if given.isNull then malformed .noValue
    let value ← given.text?
    let column := columnOf spec
    let condition ← conditionFor (Value.field spec "value_type") column value
    if column.truthy then return condition else malformed .noColumn
  | v => malformed (.notAnObject v.kind)

/-- Compiles a series of descriptors in order; an absent series is empty. -/
def compile (options : Value) : Result (List Condition) :=
  if !options.truthy then .ok []
  else match options.items? with
    | some items => items.mapM compileOne
    | none => mishap .badType ("'" ++ options.kind ++ "' object is not iterable")

/-- An ordering of at most one clause; it takes both a column and a direction. -/
def compileOrder (column direction : Value) : List Value :=
  if column.truthy && direction.truthy then [.list [column, direction]] else []

end Filter

end EntityApi
