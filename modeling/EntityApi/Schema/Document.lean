import EntityApi.Schema.Extension
import EntityApi.Schema.Signature

/-!
Schema documents. A document holds the models, the custom type declarations and the signature lines
of the two root types, and is rendered with a fixed preamble first. The line breaks are part of the
format: every part ends in one and parts are set apart by an empty line.
-/

namespace EntityApi.Schema

/-- A named block: its head, the lines indented by two blanks, and the closing brace. -/
def block (name : String) (lines : List String) : String :=
  "type " ++ name ++ " \x7b\n" ++ "\n".intercalate (lines.map ("  " ++ ·)) ++ "\n\x7d\n"

def preamble : String :=
  "scalar Date\n\ninput FilterOption \x7b\n  value_type: String!\n  column_name: String!\n" ++
  "  column_key: String\n  value: String!\n\x7d\n"

/-- The type of an entity and the type of its pages. -/
def entityTypes (m : Model) : String :=
  block m.name (m.fields.map Field.declared) ++ "\n" ++
  block (pageName m.name) ["count: Int!", "rows: [" ++ m.name ++ "]"]

structure Document where
  models : List Model
  declarations : List String
  query : List (String × String)
  mutation : List (String × String)
  deriving Repr, DecidableEq

namespace Document

/-- The generated signature lines of all models under one root type. -/
def generated (models : List Model) (root : Root) : List (String × String) :=
  models.foldl (fun lines m => Entries.merge lines (signatureLines m root)) []

/-- The custom declarations that are not blank. -/
def declarationsOf (extensions : List Extension) : List String :=
  (extensions.map fun e => Text.trim e.types).filter fun t => !t.isEmpty

def assemble (models : List Model) (extensions : List Extension) : Result Document := do
  let query ← mergeSignatures .query (generated models .query) extensions
  let mutation ← mergeSignatures .mutation (generated models .mutation) extensions
  return ⟨models, declarationsOf extensions, query, mutation⟩

def render (d : Document) : String :=
  "\n".intercalate (
    preamble :: d.models.map entityTypes ++ d.declarations.map (· ++ "\n") ++
    block "Query" (Entries.values d.query) ::
    (if d.mutation.isEmpty then [] else [block "Mutation" (Entries.values d.mutation)]))

end Document

/-- The types of an entity and its signatures, as a fragment of its own. -/
def entityFragment (m : Model) : String :=
  entityTypes m ++ "\n" ++
  "\n".intercalate (Entries.values (signatureLines m .query) ++
    Entries.values (signatureLines m .mutation)) ++ "\n"

end EntityApi.Schema
