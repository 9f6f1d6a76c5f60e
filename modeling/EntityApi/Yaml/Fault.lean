import EntityApi.Failure

/-!
What is wrong with a document, and where. A complaint names a problem at a place, and it may name
what was being read and where that began; a place that would be named twice is named once. Values
that a document spells well but that do not exist are accidents.
-/

namespace EntityApi.Yaml

/-- A place in a text. Lines and columns are counted from 0. -/
structure Mark where
  line : Nat
  column : Nat
  deriving Repr, DecidableEq

structure Complaint where
  context : Option String
  contextMark : Option Mark
  problem : String
  mark : Mark
  deriving Repr, DecidableEq

inductive Fault where
  | complaint (c : Complaint)
  /-- A character that no document may hold. -/
  | unacceptable (c : Char) (index : Nat)
  | accident (kind : Accident) (text : String)
  deriving Repr, DecidableEq

namespace Mark

/-- The line that names a place in the text of that name, counting from 1. -/
def message (name : String) (m : Mark) : String :=
  "  in \"" ++ name ++ "\", line " ++ toString (m.line + 1) ++ ", column " ++ toString (m.column + 1)

end Mark

namespace Complaint

def message (name : String) (c : Complaint) : String :=
  "\n".intercalate (c.context.toList ++
    ((c.contextMark.filter (· != c.mark)).map (Mark.message name)).toList ++
    [c.problem, c.mark.message name])

end Complaint

namespace Fault

/-- A complaint about one place. -/
def at_ (mark : Mark) (problem : String) : Fault := .complaint ⟨none, none, problem, mark⟩

/-- A complaint about a place in something that began elsewhere. -/
def inside (context : String) (start mark : Mark) (problem : String) : Fault :=
  .complaint ⟨some context, some start, problem, mark⟩

/-- The last four hexadecimal digits of a code point, or all if there are more. -/
def codeText (c : Char) : String :=
  let digits := Nat.toDigits 16 c.toNat
  String.ofList (List.replicate (4 - digits.length) '0' ++ digits)

def toFailure (name : String) : Fault → Failure
  | complaint c => .markup (c.message name)
  | unacceptable c index =>
    .markup ("unacceptable character #x" ++ codeText c ++
      ": special characters are not allowed\n  in \"" ++ name ++ "\", position " ++ toString index)
  | accident kind text => .accident kind text

end Fault

end EntityApi.Yaml
