import EntityApi.Yaml.Fault

/-!
The tokens of a document: indicators, words, scalars, and the bounds of blocks, which indentation
stands for.
-/

namespace EntityApi.Yaml

inductive Directive where
  | version (major minor : Nat)
  | tagHandle (handle expansion : String)
  | unknown (name : String)
  deriving Repr, DecidableEq

inductive Lexeme where
  | streamEnd
  | directive (d : Directive)
  | documentStart
  | documentEnd
  | blockSequenceStart
  | blockMappingStart
  | blockEnd
  | flowSequenceStart
  | flowMappingStart
  | flowSequenceEnd
  | flowMappingEnd
  | key
  | value
  | blockEntry
  | flowEntry
  | reference (name : String)
  | anchor (name : String)
  | tag (handle : Option String) (suffix : String)
  | scalar (text : String) (plain : Bool)
  deriving Repr, DecidableEq

namespace Lexeme

/-- The name of a lexeme in error texts. -/
def name : Lexeme → String
  | streamEnd => "<stream end>"
  | directive _ => "<directive>"
  | documentStart => "<document start>"
  | documentEnd => "<document end>"
  | blockSequenceStart => "<block sequence start>"
  | blockMappingStart => "<block mapping start>"
  | blockEnd => "<block end>"
  | flowSequenceStart => "["
  | flowMappingStart => "\x7b"
  | flowSequenceEnd => "]"
  | flowMappingEnd => "\x7d"
  | key => "?"
  | value => ":"
  | blockEntry => "-"
  | flowEntry => ","
  | reference _ => "<alias>"
  | anchor _ => "<anchor>"
  | tag _ _ => "<tag>"
  | scalar _ _ => "<scalar>"

end Lexeme

structure Token where
  lexeme : Lexeme
  start : Mark
  stop : Mark
  deriving Repr, DecidableEq

end EntityApi.Yaml
