import EntityApi.Api

/-!
The manifest of an interface: the revision of its sources, every entity with its key, its fields and
its operations, and all operations by root type.
-/

namespace EntityApi

structure EntityEntry where
  entity : String
  primaryKey : String
  fields : List String
  createFields : List String
  queries : List String
  mutations : List String
  deriving Repr, DecidableEq

structure Manifest where
  revision : String
  entities : List EntityEntry
  query : List String
  mutation : List String
  deriving Repr, DecidableEq

namespace EntityEntry

def ofModel (m : Model) : EntityEntry where
  entity := m.name
  primaryKey := m.primaryKey.name
  fields := m.fieldNames
  createFields := m.createFields.map Field.name
  queries := (Operation.ofRoot .query).map (·.nameFor m.name)
  mutations := (Operation.ofRoot .mutation).map (·.nameFor m.name)

end EntityEntry

namespace Manifest

/-- The revision of sources that are under no version control. -/
def unknownRevision : String := "unknown"

/-- The revision that version control answers with, without the line break. -/
def revisionOf (answer : Option String) : String := answer.elim unknownRevision Text.trim

def ofApi {σ : Type} (api : Api σ) (revision : String := unknownRevision) : Manifest where
  revision := revision
  entities := api.models.map EntityEntry.ofModel
  query := Entries.keys api.query
  mutation := Entries.keys api.mutation

def texts (l : List String) : Value := .list (l.map .text)

def entryValue (e : EntityEntry) : Value := .map [
  (.text "entity", .text e.entity), (.text "primary_key", .text e.primaryKey),
  (.text "fields", texts e.fields), (.text "create_fields", texts e.createFields),
  (.text "queries", texts e.queries), (.text "mutations", texts e.mutations)]

def toValue (m : Manifest) : Value := .map [
  (.text "git_sha", .text m.revision), (.text "entities", .list (m.entities.map entryValue)),
  (.text "query", texts m.query), (.text "mutation", texts m.mutation)]

end Manifest

end EntityApi
