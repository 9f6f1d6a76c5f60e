import EntityApi.Entity.Basic
import EntityApi.Value.Shown

/-!
Reading entities from declarations. An attribute is a bare type name or a table of options, some of
which have several spellings; of an option's spellings the first that is present counts.
-/

namespace EntityApi

/-- The value under the first of the names that is present. -/
def firstOf? (spec : List (Value × Value)) (names : List String) : Option Value :=
  names.findSome? fun name => Entries.get? spec (.text name)

namespace Attribute

def primaryKeyNames : List String := ["primary_key", "primaryKey"]
def allowNullNames : List String := ["allow_null", "allowNull"]
def defaultNames : List String := ["default", "default_value", "defaultValue"]
def autoIncrementNames : List String := ["auto_increment", "autoIncrement"]

/-- A flag that is `unset` unless the options say otherwise. -/
def flag (spec : List (Value × Value)) (names : List String) (unset : Bool) : Bool :=
  match firstOf? spec names with
  | some v => v.truthy
  | none => unset

def ofDeclaration : Value → Result Attribute
  | .text type => .ok { type := .text type }
  | .map spec =>
    match Entries.get? spec (.text "type") with
    | none => refuse .attributeUntyped
    | some type => do
      return {
        type := .text (← type.text?)
        primaryKey := flag spec primaryKeyNames false
        allowNull := flag spec allowNullNames true
        defaultValue := (firstOf? spec defaultNames).getD .null
        autoIncrement := flag spec autoIncrementNames false }
  | v => refuse (.attributeShape v.kind)

end Attribute

namespace Entity

/-- Adds the place of an attribute to a report of a malformed value. -/
def inAttribute (entity attr : Value) (r : Result Attribute) : Result Attribute :=
  match r with
  | .ok a => .ok a
  | .error f => do
    if f.isMalformed then refuse (.inAttribute (← entity.text?) (← attr.text?) f) else refuse f

def readAttributes (entity : Value) :
    List (Value × Value) → List (String × Attribute) → Result (List (String × Attribute))
  | [], read => .ok read
  | (name, spec) :: rest, read => do
    let attr ← inAttribute entity name (Attribute.ofDeclaration spec)
    readAttributes entity rest (Entries.put read (← name.text?) attr)

/-- The attributes of a declaration: what stands under `attributes`, or else under `columns`. -/
def attributesOf (spec : List (Value × Value)) : Value :=
  let first := Value.field spec "attributes"
  let second := Value.field spec "columns"
  if first.truthy then first else if second.truthy then second else .map []

def ofDeclaration (name spec : Value) : Result Entity := do
  match spec with
  | .map fields =>
    match attributesOf fields with
    | .map attributes =>
      let read ← readAttributes name attributes []
      return { name := ← name.text?, attributes := read, table := Value.field fields "table" }
    | _ => refuse (.attributesShape (← name.text?))
  | v => refuse (.entityShape (← name.text?) v.kind)

end Entity

end EntityApi
