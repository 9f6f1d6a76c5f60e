import EntityApi.FileTree
import EntityApi.Json
import EntityApi.Manifest
import EntityApi.Store.Session
import EntityApi.Value.ToJson

/-!
Writing an interface into a directory: its schema document in one file and its manifest in another.
The directory is made if it is missing, and the schema is written first.
-/

namespace EntityApi

structure Export where
  schema : Path
  manifest : Path
  deriving Repr, DecidableEq

namespace Export

/-- Where an interface is written to, given the directory. -/
def into (directory : Path) : Export :=
  ⟨directory.child "schema.graphql", directory.child "manifest.json"⟩

/-- The kinds of what is written, with the paths. -/
def paths (e : Export) : List (String × String) :=
  [("schema", e.schema.text), ("manifest", e.manifest.text)]

def event (e : Export) : Log.Event where
  name := "export"
  fields := e.paths.map fun (kind, path) => (kind, .text path)

def manifestText (m : Manifest) : Result String := do
  return (← m.toValue.toJson?).indented 0

variable {σ : Type}

def write (api : Api σ) (directory : String) : Step FileTree Export := do
  let root := Path.ofText directory
  let e := into root
  Step.update (·.makeDirectory root)
  Step.update (·.write e.schema api.sdl)
  let revision ← Step.look fun tree => .ok (Manifest.revisionOf tree.revision?)
  let manifest ← Step.ofResult (manifestText (Manifest.ofApi api revision))
  Step.update (·.write e.manifest manifest)
  Step.log e.event
  return e

end Export

end EntityApi
