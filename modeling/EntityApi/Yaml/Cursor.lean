import EntityApi.Yaml.Fault

/-!
Reading a text from the left. A cursor holds what has not been read and the place it begins at. A
`Scan` reads from a cursor and may be refused. Line ends are the line feed, the next-line character
and the two separators of Unicode; a byte order mark takes no column.
-/

namespace EntityApi.Yaml

structure Cursor where
  rest : List Char
  index : Nat := 0
  line : Nat := 0
  column : Nat := 0
  deriving Repr, DecidableEq

def isBreak (c : Char) : Bool := c == '\n' || c == '\u0085' || c == '\u2028' || c == '\u2029'

def byteOrderMark : Char := '\uFEFF'

def isBlankChar (c : Char) : Bool := c == ' ' || c == '\t'

/-- The characters of names: ASCII letters and digits, hyphen and underscore. -/
def isWordChar (c : Char) : Bool := c.isAlphanum || c == '-' || c == '_'

def isHexDigit (c : Char) : Bool :=
  c.isDigit || decide ('a' ≤ c ∧ c ≤ 'f') || decide ('A' ≤ c ∧ c ≤ 'F')

/-- Whether the text or the line ends here. -/
def endsLine (c : Option Char) : Bool := c.all isBreak

/-- Whether the text, the line or a word ends here; a tab ends no word. -/
def endsWord (c : Option Char) : Bool := c.all fun c => c == ' ' || isBreak c

/-- Whether the text, the line or a word ends here, the word perhaps by a tab. -/
def endsToken (c : Option Char) : Bool := c.all fun c => isBlankChar c || isBreak c

/-- A character in an error text; the end of the text shows as a null character. -/
def shownChar (c : Option Char) : String := Text.quoted (String.ofList [c.getD '\x00'])

namespace Cursor

def mark (c : Cursor) : Mark := ⟨c.line, c.column⟩

/-- The cursor after the next character. -/
def step (c : Cursor) : Cursor :=
  match c.rest with
  | [] => c
  | ch :: rest =>
    if isBreak ch then ⟨rest, c.index + 1, c.line + 1, 0⟩
    else ⟨rest, c.index + 1, c.line, if ch == byteOrderMark then c.column else c.column + 1⟩

def steps : Nat → Cursor → Cursor
  | 0, c => c
  | n + 1, c => steps n c.step

/-- Whether a line of three marks stands here, which separates documents. -/
def atSeparator (c : Cursor) (separator : List Char) : Bool :=
  c.rest.take 3 == separator && endsToken c.rest[3]?

/-- Whether either separator of documents stands here. -/
def atAnySeparator (c : Cursor) : Bool :=
  c.atSeparator ['-', '-', '-'] || c.atSeparator ['.', '.', '.']

end Cursor

abbrev Scan (α : Type) := StateT Cursor (Except Fault) α

namespace Scan

variable {α : Type}

def peek : Scan (Option Char) := return (← get).rest.head?

def peekAt (k : Nat) : Scan (Option Char) := return (← get).rest[k]?

def mark : Scan Mark := return (← get).mark

def column : Scan Nat := return (← get).column

/-- A bound on the number of steps from here on. -/
def room : Scan Nat := return (← get).rest.length + 1

def skip (n : Nat) : Scan Unit := modify (Cursor.steps n)

/-- Reads the longest run of characters of a class. -/
def takeWhile (p : Char → Bool) : Scan (List Char) := do
  let run := (← get).rest.takeWhile p
  skip run.length
  return run

def skipWhile (p : Char → Bool) : Scan Unit := discard (takeWhile p)

def fault (f : Fault) : Scan α := throw f

/-- Complains about this place in something that began at `start`. -/
def complain (context : String) (start : Mark) (problem : String) : Scan α := do
  fault (.inside context start (← mark) problem)

/-- Complains about the next character but `k`. -/
def expected (context : String) (start : Mark) (what : String) (k : Nat) : Scan α := do
  complain context start ("expected " ++ what ++ ", but found " ++ shownChar (← peekAt k))

/-- Reads a line end, if there is one; those of ASCII and the next-line character become line
feeds. -/
def lineBreak : Scan (Option Char) := do
  match ← peek with
  | none => return none
  | some c =>
    if c == '\n' || c == '\u0085' then skip 1; return some '\n'
    else if isBreak c then skip 1; return some c
    else return none

/-- Skips a comment, if one begins here. -/
def comment : Scan Unit := do
  if (← peek) == some '#' then skipWhile (!isBreak ·)

/-- Reads the rest of a line that may hold nothing but a comment. -/
def restOfLine (context : String) (start : Mark) : Scan Unit := do
  skipWhile (· == ' ')
  comment
  if !endsLine (← peek) then expected context start "a comment or a line break" 0
  discard lineBreak

end Scan

end EntityApi.Yaml
