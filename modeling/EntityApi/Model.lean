import EntityApi.Entity.Basic
import EntityApi.Scalar

/-!
Models: what an entity's declaration amounts to in the schema. Every attribute becomes a field with
its scalar, and exactly one field is the key: the attribute declared as such, else the attribute
named `id`, else a whole-number `id` put first. The key is required, never part of a create request
and never changed by an update.
-/

namespace EntityApi

structure Field where
  name : String
  scalar : Scalar
  required : Bool
  requiredToCreate : Bool
  updatable : Bool
  primaryKey : Bool
  deriving Repr, DecidableEq

namespace Field

def key (name : String) (scalar : Scalar) : Field where
  name := name
  scalar := scalar
  required := true
  requiredToCreate := false
  updatable := false
  primaryKey := true

def ofAttribute (name : String) (scalar : Scalar) (a : Attribute) : Field :=
  if a.primaryKey then key name scalar
  else {
    name := name
    scalar := scalar
    required := !a.allowNull && a.defaultValue.isNull
    requiredToCreate := !a.autoIncrement
    updatable := true
    primaryKey := false }

end Field

structure Model where
  name : String
  primaryKey : Field
  fields : List Field
  createFields : List Field
  deriving Repr, DecidableEq

namespace Model

def implicitKey : String := "id"

def fieldNames (m : Model) : List String := m.fields.map Field.name

/-- The scalar of an attribute; a refusal says which attribute it is about. -/
def scalarOf (entity attr : String) (declared : Value) : Result Scalar :=
  match StorageType.scalar declared with
  | .error (.unsupportedType shown _) => refuse (.unsupportedType shown (some (entity, attr)))
  | r => r

/-- The fields of the attributes. `key?` is the key declared so far; a second one is refused. -/
def readFields (entity : String) (key? : Option String) :
    List (String × Attribute) → Result (List Field)
  | [] => .ok []
  | (name, a) :: rest => do
    let scalar ← scalarOf entity name a.type
    match a.primaryKey, key? with
    | true, some first => refuse (.manyKeys entity first name)
    | true, none => return .ofAttribute name scalar a :: (← readFields entity (some name) rest)
    | false, _ => return .ofAttribute name scalar a :: (← readFields entity key? rest)

/-- Makes the first field of the name `id` the key, if there is one. -/
def promote? : List Field → Option (Field × List Field)
  | [] => none
  | f :: fs =>
    if f.name == implicitKey then
      let k := Field.key f.name f.scalar
      some (k, k :: fs)
    else (promote? fs).map fun (k, fs) => (k, f :: fs)

/-- The key of the fields, with the fields among which it has its place. -/
def settleKey (fields : List Field) : Field × List Field :=
  match fields.find? Field.primaryKey with
  | some k => (k, fields)
  | none =>
    (promote? fields).getD
      (.key implicitKey .int, .key implicitKey .int :: fields)

def ofEntity (e : Entity) : Result Model := do
  if e.name.isEmpty then refuse .emptyEntityName
  let read ← readFields e.name none e.attributes
  let (key, fields) := settleKey read
  return {
    name := e.name
    primaryKey := key
    fields := fields
    createFields := fields.filter Field.requiredToCreate }

end Model

end EntityApi
