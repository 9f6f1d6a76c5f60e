import EntityApi.Model
import EntityApi.Operation

/-!
Signatures of operations: a name, typed arguments and a result type. A signature without arguments
has no parentheses.
-/

namespace EntityApi

/-- The form `name: type`, with a bang if a value is required. -/
def typed (name type : String) (required : Bool) : String :=
  name ++ ": " ++ type ++ (if required then "!" else "")

namespace Field

/-- The field as declared in the schema. -/
def declared (f : Field) : String := typed f.name f.scalar.name f.required

end Field

namespace Schema

structure Argument where
  name : String
  type : String
  required : Bool
  deriving Repr, DecidableEq

namespace Argument

def text (a : Argument) : String := typed a.name a.type a.required

def ofField (f : Field) (required : Bool) : Argument := ⟨f.name, f.scalar.name, required⟩

end Argument

structure Signature where
  name : String
  arguments : List Argument
  result : String
  deriving Repr, DecidableEq

namespace Signature

def text (s : Signature) : String :=
  if s.arguments.isEmpty then s.name ++ ": " ++ s.result
  else s.name ++ "(" ++ ", ".intercalate (s.arguments.map Argument.text) ++ "): " ++ s.result

end Signature

def pageName (entity : String) : String := entity ++ "_page"

/-- The arguments that every listing takes. -/
def listingArguments : List Argument := [
  ⟨"offset", "Int", true⟩, ⟨"limit", "Int", true⟩, ⟨"filter_options", "[FilterOption]", false⟩,
  ⟨"order_column", "String", false⟩, ⟨"order_method", "String", false⟩]

/-- An update needs the key alone; all other arguments are optional. -/
def argumentsOf (m : Model) : Operation → List Argument
  | .read => [.ofField m.primaryKey true]
  | .readMultiple => listingArguments
  | .create => m.createFields.map fun f => .ofField f f.required
  | .update => m.fields.map fun f => .ofField f f.primaryKey

def signature (m : Model) (op : Operation) : Signature where
  name := op.nameFor m.name
  arguments := argumentsOf m op
  result := if op = .readMultiple then pageName m.name else m.name

/-- The signature lines of an entity under one root type, by operation name. -/
def signatureLines (m : Model) (root : Root) : List (String × String) :=
  Entries.ofList ((Operation.ofRoot root).map fun op => (op.nameFor m.name, (signature m op).text))

end Schema

end EntityApi
