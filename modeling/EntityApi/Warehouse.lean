import EntityApi.Model
import EntityApi.Settings
import EntityApi.Sql.Store
import EntityApi.Template

/-!
The warehouse that holds the tables of all entities unless other stores are given. Its connection
settings must all be there before any store is made. A store's key query is the template of the
settings, filled in with the names of the table and of its key.
-/

namespace EntityApi

structure Warehouse where
  host : String
  path : String
  token : String
  keyTemplate : String
  deriving Repr, DecidableEq

namespace Warehouse

/-- The warehouse of the settings, unless something that a connection needs is not set. -/
def ofSettings (s : Settings) : Result Warehouse :=
  if s.missingVariables.isEmpty then
    .ok ⟨s.warehouseHost, s.warehousePath, s.warehouseToken, s.keyTemplate⟩
  else refuse (.outage (.warehouseUnset s.missingVariables))

/-- The arguments of a connection. -/
def connection (w : Warehouse) : List (String × String) := [
  ("server_hostname", w.host), ("http_path", w.path), ("access_token", w.token)]

def keyQuery (w : Warehouse) (table : Value) (key : String) : Result (Option String) :=
  if w.keyTemplate.isEmpty then .ok none
  else (Template.fill [("table", table), ("key", .text key)] w.keyTemplate).map some

/-- The store of an entity. -/
def store (w : Warehouse) (e : Entity) (m : Model) : Result Sql.Store := do
  let key := m.primaryKey.name
  return ⟨⟨e.tableName, m.fieldNames⟩, key, ← w.keyQuery e.tableName key⟩

end Warehouse

end EntityApi
