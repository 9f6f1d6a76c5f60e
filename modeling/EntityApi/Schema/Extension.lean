import EntityApi.Entries
import EntityApi.Failure
import EntityApi.Operation
import EntityApi.Text.Blank

/-!
Caller-supplied parts of a schema: type declarations and signatures of further operations. One rule
holds everywhere: generated entries keep their order, a custom entry of the same name takes the
place of the generated one, and new entries follow in the order given.
-/

namespace EntityApi.Schema

open Text

structure Extension where
  types : String := ""
  read : String := ""
  readMultiple : String := ""
  create : String := ""
  update : String := ""
  deriving Repr, DecidableEq

namespace Extension

def blocks (e : Extension) : Root → List String
  | .query => [e.read, e.readMultiple]
  | .mutation => [e.create, e.update]

/-- The lines of a block that are not blank, without the blanks around them. -/
def linesOf (block : String) : List String :=
  ((lines block).map trim).filter fun l => !l.isEmpty

/-- The signatures for a root type, one a line. -/
def signatures (e : Extension) (root : Root) : List String := (e.blocks root).flatMap linesOf

end Extension

def isNameStart (c : Char) : Bool :=
  c == '_' || decide ('A' ≤ c ∧ c ≤ 'Z') || decide ('a' ≤ c ∧ c ≤ 'z')

def isNameChar (c : Char) : Bool := isNameStart c || decide ('0' ≤ c ∧ c ≤ '9')

/-- The longest name at the start of a text. -/
def takeName : List Char → List Char
  | [] => []
  | c :: s => if isNameStart c then c :: s.takeWhile isNameChar else []

/-- The operation that a signature line declares: the name at its start. -/
def signatureName (line : String) : Result String :=
  match takeName (trimLeft line.toList) with
  | [] => refuse (.unnamedSignature line)
  | name => .ok (String.ofList name)

def named (line : String) : Result (String × String) := do return (← signatureName line, line)

/-- Merges the signatures of the extensions into generated ones, extension by extension. -/
def mergeSignatures (root : Root) :
    List (String × String) → List Extension → Result (List (String × String))
  | generated, [] => .ok generated
  | generated, e :: es => do
    let custom ← (e.signatures root).mapM named
    mergeSignatures root (Entries.merge generated (Entries.ofList custom)) es

end EntityApi.Schema
