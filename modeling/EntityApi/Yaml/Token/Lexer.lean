import EntityApi.Yaml.Token.Scalar

/-!
Cutting a document into tokens. Outside brackets the indentation of a line opens and closes blocks.
A key of a mapping need not be marked: a word, a scalar or a bracketed collection becomes a key when
a colon follows it on the same line, and the mark is then put before it. Such a key is pending until
it is settled; a pending key that must be one, because nothing else can stand at its place, is a
fault if no colon comes.

Tokens from a pending key on cannot be used before the key is settled. So when a fault ends the
text, the tokens that count are those before every key pending at that time.
-/

namespace EntityApi.Yaml

structure PendingKey where
  /-- How many tokens come before it. -/
  tokensBefore : Nat
  required : Bool
  index : Nat
  mark : Mark
  deriving Repr, DecidableEq

structure Lexer where
  cursor : Cursor
  tokens : Array Token := #[]
  /-- The brackets open, less those closed. -/
  flowDepth : Int := 0
  /-- The indentation of the innermost block. -/
  indent : Int := -1
  /-- The indentations of the blocks around it, from the inside. -/
  outer : List Int := []
  /-- Whether a key may begin here. -/
  keyAllowed : Bool := true
  /-- The pending keys by depth of brackets. -/
  keys : List (Int × PendingKey) := []
  finished : Bool := false

abbrev Lex (α : Type) := StateT Lexer (Except Fault) α

namespace Lex

def scan {α : Type} (x : Scan α) : Lex α := fun s => do
  let (a, cursor) ← x.run s.cursor
  return (a, { s with cursor := cursor })

def emit (lexeme : Lexeme) (start stop : Mark) : Lex Unit :=
  modify fun s => { s with tokens := s.tokens.push ⟨lexeme, start, stop⟩ }

/-- Emits a lexeme that takes no room in the text. -/
def emitHere (lexeme : Lexeme) : Lex Unit := do
  let here := (← get).cursor.mark
  emit lexeme here here

/-- Emits a lexeme that is read from the text. -/
def emitRead (x : Scan Lexeme) : Lex Unit := do
  let start := (← get).cursor.mark
  let lexeme ← scan x
  emit lexeme start (← get).cursor.mark

/-- Emits an indicator of `size` characters. -/
def emitMark (lexeme : Lexeme) (size : Nat) : Lex Unit := emitRead do
  Scan.skip size
  return lexeme

def allowKey (allowed : Bool) : Lex Unit := modify fun s => { s with keyAllowed := allowed }

def inFlow : Lex Bool := return (← get).flowDepth != 0

def column : Lex Int := return (← get).cursor.column

/-! ## Pending keys -/

def missingColon (key : PendingKey) (here : Mark) : Fault :=
  .inside "while scanning a simple key" key.mark here "could not find expected ':'"

/-- Gives up the pending key at the current depth. -/
def dropKey : Lex Unit := do
  let s ← get
  match s.keys.lookup s.flowDepth with
  | none => return
  | some key =>
    if key.required then throw (missingColon key s.cursor.mark)
    set { s with keys := s.keys.filter (·.1 != s.flowDepth) }

/-- Makes what comes next a pending key, if a key is allowed here. -/
def offerKey : Lex Unit := do
  let s ← get
  if s.keyAllowed then
    dropKey
    let required := s.flowDepth == 0 && s.indent == s.cursor.column
    let key : PendingKey := ⟨s.tokens.size, required, s.cursor.index, s.cursor.mark⟩
    modify fun s => { s with keys := s.keys ++ [(s.flowDepth, key)] }

/-- A key stays on one line and is not longer than 1024 characters. -/
def isStale (cursor : Cursor) (key : PendingKey) : Bool :=
  key.mark.line != cursor.line || decide (key.index + 1024 < cursor.index)

/-- Gives up the pending keys that can be none any more. -/
def dropStaleKeys : Lex Unit := do
  let s ← get
  match s.keys.find? fun e => isStale s.cursor e.2 && e.2.required with
  | some (_, key) => throw (missingColon key s.cursor.mark)
  | none => set { s with keys := s.keys.filter fun e => !isStale s.cursor e.2 }

/-! ## Indentation -/

/-- How many blocks end at a column, and the indentations that are left. -/
def unwound (column : Int) : Int → List Int → Nat × Int × List Int
  | indent, [] => (0, indent, [])
  | indent, next :: outer =>
    if column < indent then
      let (count, indent, outer) := unwound column next outer
      (count + 1, indent, outer)
    else (0, indent, next :: outer)

/-- Ends the blocks that are indented deeper than a column; inside brackets there are none. -/
def unwindTo (column : Int) : Lex Unit := do
  if !(← inFlow) then
    let s ← get
    let (count, indent, outer) := unwound column s.indent s.outer
    set { s with indent := indent, outer := outer }
    for _ in List.range count do emitHere .blockEnd

/-- Begins a block at a column, unless one is open there; tells whether it did. -/
def indentTo (column : Int) : Lex Bool := do
  let s ← get
  if s.indent < column then
    set { s with indent := column, outer := s.indent :: s.outer }
    return true
  else return false

/-- Begins a block of the kind of `lexeme` at this column, unless brackets are open. A block may begin
only where a key may. -/
def openBlock (lexeme : Lexeme) (problem : String) : Lex Unit := do
  if !(← inFlow) then
    let s ← get
    if !s.keyAllowed then throw (.at_ s.cursor.mark problem)
    if ← indentTo s.cursor.column then emitHere lexeme

/-! ## Tokens -/

/-- Skips blanks, comments and line ends. Outside brackets a key may begin on a new line. -/
def skipToToken : Nat → Lex Unit
  | 0 => return
  | fuel + 1 => do
    let ended ← scan do
      Scan.skipWhile (· == ' ')
      Scan.comment
      Scan.lineBreak
    if ended.isSome then
      if !(← inFlow) then allowKey true
      skipToToken fuel

/-- A byte order mark may begin the text. -/
def skipByteOrderMark : Lex Unit := scan do
  if (← get).index == 0 && (← Scan.peek) == some byteOrderMark then Scan.skip 1

def streamEnd : Lex Unit := do
  unwindTo (-1)
  dropKey
  allowKey false
  emitHere .streamEnd
  modify fun s => { s with keys := [], finished := true }

/-- A directive or a separator of documents, before which all blocks end. -/
def betweenDocuments (x : Scan Lexeme) : Lex Unit := do
  unwindTo (-1)
  dropKey
  allowKey false
  emitRead x

def openBracket (lexeme : Lexeme) : Lex Unit := do
  offerKey
  modify fun s => { s with flowDepth := s.flowDepth + 1 }
  allowKey true
  emitMark lexeme 1

def closeBracket (lexeme : Lexeme) : Lex Unit := do
  dropKey
  modify fun s => { s with flowDepth := s.flowDepth - 1 }
  allowKey false
  emitMark lexeme 1

def flowEntry : Lex Unit := do
  allowKey true
  dropKey
  emitMark .flowEntry 1

def blockEntry : Lex Unit := do
  openBlock .blockSequenceStart "sequence entries are not allowed here"
  allowKey true
  dropKey
  emitMark .blockEntry 1

def key : Lex Unit := do
  openBlock .blockMappingStart "mapping keys are not allowed here"
  allowKey (!(← inFlow))
  dropKey
  emitMark .key 1

/-- Puts the mark of a key, and perhaps the start of its mapping, before the tokens of the key. -/
def insertKey (key : PendingKey) : Lex Unit := do
  let opens ← if ← inFlow then pure false else indentTo key.mark.column
  let lexemes : List Lexeme := if opens then [.blockMappingStart, .key] else [.key]
  let added := (lexemes.map fun l => Token.mk l key.mark key.mark).toArray
  let n := key.tokensBefore
  modify fun s => { s with tokens := s.tokens.take n ++ added ++ s.tokens.drop n }

def value : Lex Unit := do
  let s ← get
  match s.keys.lookup s.flowDepth with
  | some key =>
    set { s with keys := s.keys.filter (·.1 != s.flowDepth) }
    insertKey key
    allowKey false
  | none =>
    openBlock .blockMappingStart "mapping values are not allowed here"
    allowKey (!(← inFlow))
    dropKey
  emitMark .value 1

/-- A word or a scalar, which may turn out to be a key. -/
def keyLike (x : Scan Lexeme) : Lex Unit := do
  offerKey
  allowKey false
  emitRead x

def plainScalar : Lex Unit := do
  offerKey
  allowKey false
  let flow ← inFlow
  let indent := (← get).indent + 1
  let start := (← get).cursor.mark
  let (lexeme, broke) ← scan (Scan.plainScalar flow indent)
  allowKey broke
  emit lexeme start (← get).cursor.mark

def blockScalar (folded : Bool) : Lex Unit := do
  allowKey true
  dropKey
  emitRead (Scan.blockScalar folded (← get).indent)

/-- The characters that cannot begin a plain scalar. -/
def indicators : List Char := "-?:,[]\x7b\x7d#&*!|>'\"%@\x60".toList

/-- Whether a plain scalar begins with `c`, which `next` follows. -/
def beginsPlain (flow : Bool) (c : Char) (next : Option Char) : Bool :=
  (!endsToken (some c) && !indicators.contains c) ||
    (!endsToken next && (c == '-' || (!flow && (c == '?' || c == ':'))))

/-- Emits the token that begins with `c`. -/
def tokenAt (c : Char) : Lex Unit := do
  let cursor := (← get).cursor
  let next := cursor.rest[1]?
  let flow ← inFlow
  let lineStart := cursor.column == 0
  if c == '%' && lineStart then betweenDocuments Scan.directive
  else if lineStart && cursor.atSeparator ['-', '-', '-'] then
    betweenDocuments do Scan.skip 3; return .documentStart
  else if lineStart && cursor.atSeparator ['.', '.', '.'] then
    betweenDocuments do Scan.skip 3; return .documentEnd
  else if c == '[' then openBracket .flowSequenceStart
  else if c == '\x7b' then openBracket .flowMappingStart
  else if c == ']' then closeBracket .flowSequenceEnd
  else if c == '\x7d' then closeBracket .flowMappingEnd
  else if c == ',' then flowEntry
  else if c == '-' && endsToken next then blockEntry
  else if c == '?' && (flow || endsToken next) then key
  else if c == ':' && (flow || endsToken next) then value
  else if c == '*' then keyLike do return .reference (← Scan.anchorName "alias")
  else if c == '&' then keyLike do return .anchor (← Scan.anchorName "anchor")
  else if c == '!' then keyLike Scan.tag
  else if c == '|' && !flow then blockScalar false
  else if c == '>' && !flow then blockScalar true
  else if c == '\'' then keyLike (Scan.quotedScalar false)
  else if c == '"' then keyLike (Scan.quotedScalar true)
  else if beginsPlain flow c next then plainScalar
  else throw (.complaint ⟨some "while scanning for the next token", none,
    "found character " ++ shownChar (some c) ++ " that cannot start any token", cursor.mark⟩)

/-- Emits the next token, and the ends of the blocks that end before it. -/
def next : Lex Unit := do
  skipByteOrderMark
  skipToToken ((← get).cursor.rest.length + 1)
  dropStaleKeys
  unwindTo (← column)
  match (← get).cursor.rest with
  | [] => streamEnd
  | c :: _ => tokenAt c

end Lex

/-- The tokens of a text, and the fault that ends it if there is one. -/
structure Tokens where
  tokens : List Token
  fault : Option Fault

namespace Lexer

/-- How many tokens come before every pending key. -/
def settled (s : Lexer) : Nat := s.keys.foldl (fun n e => min n e.2.tokensBefore) s.tokens.size

def stopped (s : Lexer) (f : Fault) : Tokens := ⟨s.tokens.toList.take s.settled, some f⟩

/-- Emits at most `fuel` tokens with what belongs to them. -/
def run : Nat → Lexer → Tokens
  | 0, s => ⟨s.tokens.toList, none⟩
  | fuel + 1, s =>
    match Lex.next.run s with
    | .error f => s.stopped f
    | .ok (_, s) =>
      if s.finished then ⟨s.tokens.toList, none⟩
      else
        match Lex.dropStaleKeys.run s with
        | .error f => s.stopped f
        | .ok (_, s) => run fuel s

end Lexer

/-- Whether documents may hold the character: no controls but tab and line ends, and no
non-characters at the end of the first plane. -/
def isAcceptable (c : Char) : Bool :=
  let n := c.toNat
  n == 9 || n == 10 || n == 13 || decide (0x20 ≤ n ∧ n ≤ 0x7E) || n == 0x85 ||
    decide (0xA0 ≤ n ∧ n ≤ 0xFFFD) || decide (0x10000 ≤ n)

/-- The tokens of a text. Every token but the last takes a character at least. -/
def Tokens.ofText (text : List Char) : Tokens :=
  match text.findIdx? (!isAcceptable ·) with
  | some i => ⟨[], (text[i]?).map fun c => .unacceptable c i⟩
  | none => Lexer.run (text.length + 1) { cursor := { rest := text } }

end EntityApi.Yaml
