import EntityApi.Yaml.Token.Word

/-!
Reading scalars. In plain and quoted scalars a single line end becomes a space, and of several line
ends the first is dropped. A block scalar keeps its line ends, or folds them likewise if it is
marked so; its last line ends are kept, cut to one, or dropped.
-/

namespace EntityApi.Yaml.Scan

/-! ## Plain scalars -/

/-- The characters that end a plain scalar inside brackets, and those that a colon ends it before. -/
def flowMarks : List Char := ",[]\x7b\x7d".toList

/-- The longest plain run of a text. -/
def plainRun (flow : Bool) : List Char → List Char
  | [] => []
  | c :: s =>
    if endsToken (some c) then []
    else if flow && (c == '?' || flowMarks.contains c) then []
    else if c == ':' && (endsToken s.head? || (flow && s.head?.any (flowMarks.contains ·))) then []
    else c :: plainRun flow s

/-- Further line ends and the spaces around them; `none` if a separator of documents follows. -/
def plainBreaks : Nat → Scan (Option (List Char))
  | 0 => return some []
  | fuel + 1 => do
    skipWhile (· == ' ')
    match ← lineBreak with
    | none => return some []
    | some c =>
      if (← get).atAnySeparator then return none
      return (← plainBreaks fuel).map (c :: ·)

/-- What stands for a line end and the line ends that follow it. -/
def foldedBreak (first : Char) (more : List Char) : List Char :=
  if first != '\n' then first :: more else if more.isEmpty then [' '] else more

/-- What stands between two runs of a plain scalar, and whether a line ended in it. Nothing stands
there if the scalar is at its end. -/
def plainGap : Scan (List Char × Bool) := do
  let spaces ← takeWhile (· == ' ')
  match ← lineBreak with
  | none => return (spaces, false)
  | some c =>
    if (← get).atAnySeparator then return ([], true)
    match ← plainBreaks (← room) with
    | none => return ([], true)
    | some more => return (foldedBreak c more, true)

/-- The runs of a plain scalar, the first one after `gap`. Outside brackets it ends at a line that
is indented less than `indent`. -/
def plainRuns (flow : Bool) (indent : Int) : Nat → List Char → Bool → Scan (List Char × Bool)
  | 0, _, broke => return ([], broke)
  | fuel + 1, gap, broke => do
    let run := plainRun flow (← get).rest
    if run.isEmpty then return ([], broke)
    skip run.length
    let (next, broke) ← plainGap
    if next.isEmpty || (← peek) == some '#' || (!flow && decide ((← column : Int) < indent)) then
      return (gap ++ run, broke)
    let (more, broke) ← plainRuns flow indent fuel next broke
    return (gap ++ run ++ more, broke)

/-- A plain scalar, and whether a line ended behind it. -/
def plainScalar (flow : Bool) (indent : Int) : Scan (Lexeme × Bool) := do
  let (text, broke) ← plainRuns flow indent (← room) [] false
  return (.scalar (String.ofList text) true, broke)

/-! ## Quoted scalars -/

def quotedContext : String := "while scanning a quoted scalar"

def doubleQuotedContext : String := "while scanning a double-quoted scalar"

/-- Line ends and the blanks around them. -/
def quotedBreaks (start : Mark) : Nat → Scan (List Char)
  | 0 => return []
  | fuel + 1 => do
    if (← get).atAnySeparator then complain quotedContext start "found unexpected document separator"
    skipWhile isBlankChar
    match ← lineBreak with
    | none => return []
    | some c => return c :: (← quotedBreaks start fuel)

/-- Blanks, which a line end swallows. -/
def quotedGap (start : Mark) : Scan (List Char) := do
  let blanks ← takeWhile isBlankChar
  if (← peek).isNone then complain quotedContext start "found unexpected end of stream"
  match ← lineBreak with
  | none => return blanks
  | some c => return foldedBreak c (← quotedBreaks start (← room))

/-- The characters that single letters stand for after a backslash. -/
def escapeTable : List (Char × Char) := [
  ('0', '\x00'), ('a', '\x07'), ('b', '\x08'), ('t', '\t'), ('\t', '\t'), ('n', '\n'),
  ('v', '\x0b'), ('f', '\x0c'), ('r', '\r'), ('e', '\x1b'), (' ', ' '), ('"', '"'), ('\\', '\\'),
  ('/', '/'), ('N', '\u0085'), ('_', '\u00a0'), ('L', '\u2028'), ('P', '\u2029')]

/-- How many digits follow the letter of a numbered escape. -/
def escapeWidth? : Char → Option Nat
  | 'x' => some 2
  | 'u' => some 4
  | 'U' => some 8
  | _ => none

/-- The character of a code point. -/
def numbered (code : Nat) : Scan Char :=
  if code < 0x110000 then return Char.ofNat code
  else if code < 0x80000000 then fault (.accident .badValue "chr() arg not in range(0x110000)")
  else fault (.accident .overflow "Python int too large to convert to C int")

/-- What an escape stands for, its backslash being next. -/
def escape (start : Mark) : Scan (List Char) := do
  skip 1
  let next ← peek
  match next.bind (escapeTable.lookup ·), next.bind escapeWidth? with
  | some c, _ => skip 1; return [c]
  | none, some width =>
    skip 1
    for k in List.range width do
      if !(← peekAt k).any isHexDigit then
        expected doubleQuotedContext start
          ("escape sequence of " ++ toString width ++ " hexadecimal numbers") k
    let c ← numbered (hexNumber ((← get).rest.take width))
    skip width
    return [c]
  | none, none =>
    match ← lineBreak with
    | some _ => quotedBreaks start (← room)
    | none => complain doubleQuotedContext start ("found unknown escape character " ++ shownChar next)

/-- The characters that stand for themselves in quoted scalars of both kinds. -/
def isQuotedPlain (c : Char) : Bool :=
  c != '\'' && c != '"' && c != '\\' && !isBlankChar c && !isBreak c

/-- What the next character or escape stands for; `none` at the closing quote. -/
def quotedPiece (double : Bool) (start : Mark) : Scan (Option (List Char)) := do
  match ← peek with
  | some '"' => if double then return none else skip 1; return some ['"']
  | some '\\' => if double then return some (← escape start) else skip 1; return some ['\\']
  | some '\'' =>
    if double then skip 1; return some ['\'']
    else if (← peekAt 1) == some '\'' then skip 2; return some ['\'']
    else return none
  | _ => return some (← quotedGap start)

def quotedPieces (double : Bool) (start : Mark) : Nat → Scan (List Char)
  | 0 => return []
  | fuel + 1 => do
    let run ← takeWhile isQuotedPlain
    match ← quotedPiece double start with
    | none => return run
    | some piece => return run ++ piece ++ (← quotedPieces double start fuel)

def quotedScalar (double : Bool) : Scan Lexeme := do
  let start ← mark
  skip 1
  let text ← quotedPieces double start (← room)
  skip 1
  return .scalar (String.ofList text) false

/-! ## Block scalars -/

def blockContext : String := "while scanning a block scalar"

/-- What becomes of the line ends at the end of a block scalar. -/
inductive Chomping where
  | keep
  | clip
  | strip
  deriving Repr, DecidableEq

def chompingOf? : Char → Option Chomping
  | '+' => some .keep
  | '-' => some .strip
  | _ => none

def blockChomping : Scan (Option Chomping) := do
  let found := (← peek).bind chompingOf?
  if found.isSome then skip 1
  return found

/-- The digit that says how deep a block scalar is indented. -/
def blockDepth (start : Mark) : Scan (Option Nat) := do
  match ← peek with
  | some c =>
    if c == '0' then
      complain blockContext start "expected indentation indicator in the range 1-9, but found 0"
    else if c.isDigit then skip 1; return some (c.toNat - 48)
    else return none
  | none => return none

/-- The marks after the sign of a block scalar, in either order. -/
def blockHeader (start : Mark) : Scan (Chomping × Option Nat) := do
  let first ← blockChomping
  let depth ← blockDepth start
  let last ← if first.isNone && depth.isSome then blockChomping else pure none
  if !endsWord (← peek) then
    expected blockContext start "chomping or indentation indicators" 0
  return ((first.orElse fun _ => last).getD .clip, depth)

/-- Skips spaces up to a column. -/
def indentTo (indent : Nat) : Scan Unit := do
  let spaces := (← get).rest.takeWhile (· == ' ')
  skip (min spaces.length (indent - (← column)))

/-- Empty lines of a block scalar. -/
def blockBreaks (indent : Nat) : Nat → Scan (List Char)
  | 0 => return []
  | fuel + 1 => do
    indentTo indent
    match ← lineBreak with
    | none => return []
    | some c => return c :: (← blockBreaks indent fuel)

/-- The empty lines before a block scalar, and the deepest column that spaces reach in them or in
the line after them. -/
def blockIndentation : Nat → Nat → Scan (List Char × Nat)
  | 0, deepest => return ([], deepest)
  | fuel + 1, deepest => do
    skipWhile (· == ' ')
    let deepest := max deepest (← column)
    match ← lineBreak with
    | none => return ([], deepest)
    | some c =>
      let (breaks, deepest) ← blockIndentation fuel deepest
      return (c :: breaks, deepest)

structure BlockText where
  text : List Char
  /-- The end of the last line. -/
  lastBreak : Option Char
  /-- The empty lines after it. -/
  breaks : List Char

/-- Whether a line of the block scalar begins here. -/
def atBlockLine (indent : Nat) : Scan Bool :=
  return (← column) == indent && (← peek).isSome

/-- The lines of a block scalar, after empty ones. A folded line end becomes a space, unless either
line begins with a blank; before empty lines it is dropped. -/
def blockLines (folded : Bool) (indent : Nat) : Nat → List Char → Scan BlockText
  | 0, breaks => return ⟨[], none, breaks⟩
  | fuel + 1, breaks => do
    if !(← atBlockLine indent) then return ⟨[], none, breaks⟩
    let blankFirst := (← peek).any isBlankChar
    let line ← takeWhile (!isBreak ·)
    let lastBreak ← lineBreak
    let next ← blockBreaks indent (← room)
    if ← atBlockLine indent then
      let joint :=
        if folded && lastBreak == some '\n' && !blankFirst && !(← peek).any isBlankChar then
          if next.isEmpty then [' '] else []
        else lastBreak.toList
      let more ← blockLines folded indent fuel next
      return { more with text := breaks ++ line ++ joint ++ more.text }
    else return ⟨breaks ++ line, lastBreak, next⟩

/-- A block scalar inside a block of the given indentation. -/
def blockScalar (folded : Bool) (outer : Int) : Scan Lexeme := do
  let start ← mark
  skip 1
  let (chomping, depth) ← blockHeader start
  restOfLine blockContext start
  let least := (max (outer + 1) 1).toNat
  let (breaks, indent) ← match depth with
    | some d => do
      let indent := least + d - 1
      pure (← blockBreaks indent (← room), indent)
    | none => do
      let (breaks, deepest) ← blockIndentation (← room) 0
      pure (breaks, max least deepest)
  let body ← blockLines folded indent (← room) breaks
  let tail := match chomping with
    | .keep => body.lastBreak.toList ++ body.breaks
    | .clip => body.lastBreak.toList
    | .strip => []
  return .scalar (String.ofList (body.text ++ tail)) false

end EntityApi.Yaml.Scan
