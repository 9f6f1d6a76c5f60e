import EntityApi.Value.Basic

/-!
Entities as they are declared: a name, attributes in order with their options, and the table that
stores them.
-/

namespace EntityApi

structure Attribute where
  type : Value := .null
  primaryKey : Bool := false
  allowNull : Bool := true
  defaultValue : Value := .null
  autoIncrement : Bool := false

structure Entity where
  name : String
  attributes : List (String × Attribute) := []
  table : Value := .null

namespace Entity

/-- The declared table, or the entity's own name. -/
def tableName (e : Entity) : Value := if e.table.truthy then e.table else .text e.name

end Entity

end EntityApi
