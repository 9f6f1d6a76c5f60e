import EntityApi.Yaml.Fault

/-!
The nodes of a document: scalars as they are written, sequences and mappings, each with its tag and
the place where it begins. Aliases are gone: the node they stand for is put in their place.
-/

namespace EntityApi.Yaml

inductive Node where
  | scalar (tag text : String) (mark : Mark)
  | sequence (tag : String) (items : List Node) (mark : Mark)
  | mapping (tag : String) (entries : List (Node × Node)) (mark : Mark)

namespace Node

def tag : Node → String
  | scalar tag _ _ => tag
  | sequence tag _ _ => tag
  | mapping tag _ _ => tag

def mark : Node → Mark
  | scalar _ _ mark => mark
  | sequence _ _ mark => mark
  | mapping _ _ mark => mark

/-- The kind of a node, as error texts give it. -/
def kind : Node → String
  | scalar _ _ _ => "scalar"
  | sequence _ _ _ => "sequence"
  | mapping _ _ _ => "mapping"

end Node

end EntityApi.Yaml
