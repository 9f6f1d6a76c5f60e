import EntityApi.Entity.Declaration
import EntityApi.FileTree

/-!
The registry of entities: the files of one directory whose names end in `.yaml`, in order of their
names. Every file is read before any entity is. A file holds a table whose `entities` are a table of
declarations by name, or a list of such tables and of declarations that name themselves.
-/

namespace EntityApi

structure Registry where
  /-- The names of the files with the tables that they hold. -/
  documents : List (String × List (Value × Value))

namespace Registry

/-- The file of general settings, which declares no entities. -/
def settingsFile : String := "_settings.yaml"

def isDeclarationFile (name : String) : Bool := name.endsWith ".yaml" && name != settingsFile

/-- The table of a document, where an empty document is an empty table. -/
def tableOf (file : String) (document : Value) : Result (List (Value × Value)) :=
  if !document.truthy then .ok []
  else
    match document with
    | .map entries => .ok entries
    | v => refuse (.inFile file (.documentShape v.kind))

def load (tree : FileTree) (root : String) : Result Registry := do
  let directory := Path.ofText root
  if !tree.isDirectory directory then refuse (.outage (.noRegistry root))
  let documents ← ((tree.namesIn directory).filter isDeclarationFile).mapM fun name => do
    return (name, ← tableOf name (← tree.document (directory.child name)))
  return ⟨documents⟩

/-- Whether a table is a declaration that names itself. -/
def namesItself (entries : List (Value × Value)) : Bool :=
  let has (name : String) : Bool := Entries.has entries (.text name)
  has "name" && (has "attributes" || has "columns")

/-- The declarations of an item of a list, by name. -/
def declarationsOfItem (file : String) (item : Value) : List (Result (Value × Value)) :=
  match item with
  | .map entries =>
    if namesItself entries then [.ok (Value.field entries "name", item)] else entries.map .ok
  | v => [refuse (.inFile file (.entityItemShape v.kind))]

/-- The declarations of a file, by name and in order, up to the first fault. -/
def declarations (file : String) (table : List (Value × Value)) : List (Result (Value × Value)) :=
  let entities := Value.field table "entities"
  if !entities.truthy then []
  else
    match entities with
    | .map entries => entries.map .ok
    | .list items => items.flatMap (declarationsOfItem file)
    | v => [refuse (.inFile file (.entitiesShape v.kind))]

/-- Reads a declaration; a malformed one is reported with its file. -/
def entityOf (file : String) (declaration : Result (Value × Value)) : Result Entity := do
  let (name, spec) ← declaration
  match Entity.ofDeclaration name spec with
  | .ok e => return e
  | .error f => refuse (if f.isMalformed then .inFile file f else f)

/-- All entities, file after file. -/
def entities (r : Registry) : Result (List Entity) := do
  let perFile ← r.documents.mapM fun (file, table) => (declarations file table).mapM (entityOf file)
  return perFile.flatten

end Registry

end EntityApi
