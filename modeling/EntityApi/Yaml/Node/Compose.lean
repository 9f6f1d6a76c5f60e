import EntityApi.Yaml.Node
import EntityApi.Yaml.Tag
import EntityApi.Yaml.Token.Lexer

/-!
Composing the tokens of a text into a node. A text holds at most one document. An alias stands for
the node with its anchor; inside that node itself it stands for the node without its parts. An
anchor may be given only once. Where a node is missing, an empty scalar stands.
-/

namespace EntityApi.Yaml

/-- What is left of the tokens, and the names that have been given. -/
structure Composing where
  tokens : List Token
  fault : Option Fault
  handles : List (String × String) := []
  anchors : List (String × Node) := []

abbrev Compose (α : Type) := StateT Composing (Except Fault) α

namespace Compose

/-- The next token. Where the tokens end the text does, by the fault if there is one. -/
def peek : Compose Token := do
  let s ← get
  match s.tokens, s.fault with
  | t :: _, _ => return t
  | [], some f => throw f
  | [], none => return ⟨.streamEnd, ⟨0, 0⟩, ⟨0, 0⟩⟩

def skip : Compose Unit := modify fun s => { s with tokens := s.tokens.drop 1 }

def take : Compose Token := do
  let t ← peek
  skip
  return t

/-- Whether the next token is one of the lexemes. -/
def isNext (lexemes : List Lexeme) : Compose Bool := return lexemes.contains (← peek).lexeme

/-- Complains about the next token in something that began at `start`. -/
def unexpected {α : Type} (context : String) (start : Mark) (what verb : String) : Compose α := do
  let t ← peek
  throw (.inside context start t.start ("expected " ++ what ++ ", but " ++ verb ++ " " ++
    Text.quoted t.lexeme.name))

/-! ## Properties -/

structure Properties where
  anchor : Option String := none
  /-- The tag in full. -/
  tag : Option String := none
  /-- Where the properties begin. -/
  start : Option Mark := none

def anchor? : Compose (Option (String × Mark)) := do
  match ← peek with
  | ⟨.anchor name, start, _⟩ => skip; return some (name, start)
  | _ => return none

def tag? : Compose (Option (Option String × String × Mark)) := do
  match ← peek with
  | ⟨.tag handle suffix, start, _⟩ => skip; return some (handle, suffix, start)
  | _ => return none

/-- A tag in full. Its handle must be known. -/
def fullTag (start : Mark) (tag : Option String × String × Mark) : Compose String := do
  match tag with
  | (none, suffix, _) => return suffix
  | (some handle, suffix, mark) =>
    match (← get).handles.lookup handle with
    | some expansion => return expansion ++ suffix
    | none =>
      throw (.inside "while parsing a node" start mark
        ("found undefined tag handle " ++ Text.quoted handle))

/-- An anchor and a tag in either order. -/
def properties : Compose Properties := do
  let first ← anchor?
  let tag ← tag?
  let anchor ← if first.isNone && tag.isSome then anchor? else pure first
  let start := ((first.map (·.2)).orElse fun _ => tag.map (·.2.2))
  let full ← match tag, start with
    | some t, some start => some <$> fullTag start t
    | _, _ => pure none
  return ⟨anchor.map (·.1), full, start⟩

/-- The mark of a node that leaves its tag to its spelling. -/
def plainMark : String := "!"

/-- The tag of a scalar: the one that is given, or else the one that its spelling has if it is
plain or marked so. -/
def scalarTag (tag : Option String) (plain : Bool) (text : String) : String :=
  match tag with
  | some t => if t == plainMark then Tag.ofPlain text else t
  | none => if plain then Tag.ofPlain text else Tag.text

/-- The tag of a collection. -/
def collectionTag (tag : Option String) (unmarked : String) : String :=
  match tag with
  | some t => if t == plainMark then unmarked else t
  | none => unmarked

/-- Refuses an anchor that was given before. -/
def checkAnchor (p : Properties) (start : Mark) : Compose Unit := do
  match p.anchor with
  | none => return
  | some name =>
    match (← get).anchors.lookup name with
    | none => return
    | some first =>
      throw (.inside ("found duplicate anchor " ++ Text.quoted name ++ "; first occurrence")
        first.mark start "second occurrence")

/-- Gives a node the name of an anchor. -/
def name (p : Properties) (n : Node) : Compose Unit :=
  match p.anchor with
  | none => return
  | some name => modify fun s => { s with anchors := (name, n) :: s.anchors }

def named (p : Properties) (n : Node) : Compose Node := do
  name p n
  return n

def emptyScalar (mark : Mark) : Node := .scalar (Tag.ofPlain "") "" mark

/-! ## Nodes -/

mutual

/-- A node. Blocks are admitted only outside brackets, and a sequence without indentation only as a
part of a mapping. -/
def node (block indentless : Bool) : Nat → Compose Node
  | 0 => return emptyScalar ⟨0, 0⟩
  | fuel + 1 => do
    match ← peek with
    | ⟨.reference name, start, _⟩ => do
      skip
      match (← get).anchors.lookup name with
      | some n => return n
      | none => throw (.at_ start ("found undefined alias " ++ Text.quoted name))
    | _ => do
      let p ← properties
      let t ← peek
      let start := p.start.getD t.start
      let sequence (items : Compose (List Node)) : Compose Node := do
        let tag := collectionTag p.tag Tag.sequence
        checkAnchor p start
        name p (.sequence tag [] start)
        named p (.sequence tag (← items) start)
      let mapping (entries : Compose (List (Node × Node))) : Compose Node := do
        let tag := collectionTag p.tag Tag.mapping
        checkAnchor p start
        name p (.mapping tag [] start)
        named p (.mapping tag (← entries) start)
      match t.lexeme, block with
      | .blockEntry, _ =>
        if indentless then sequence (indentlessItems fuel) else missing p block start
      | .scalar text plain, _ => do
        skip
        checkAnchor p start
        named p (.scalar (scalarTag p.tag plain text) text start)
      | .flowSequenceStart, _ => sequence do skip; flowItems t.start true fuel
      | .flowMappingStart, _ => mapping do skip; flowEntries t.start true fuel
      | .blockSequenceStart, true => sequence do skip; blockItems t.start fuel
      | .blockMappingStart, true => mapping do skip; blockEntries t.start fuel
      | _, _ => missing p block start

/-- The node that stands where there are properties only. -/
def missing (p : Properties) (block : Bool) (start : Mark) : Compose Node := do
  if p.start.isSome then
    checkAnchor p start
    named p (.scalar (scalarTag p.tag true "") "" start)
  else
    unexpected ("while parsing a " ++ (if block then "block" else "flow") ++ " node") start
      "the node content" "found"

/-- A node, or an empty scalar if one of the lexemes is next. -/
def nodeUnless (stops : List Lexeme) (mark : Mark) (block indentless : Bool) : Nat → Compose Node
  | 0 => return emptyScalar mark
  | fuel + 1 => do
    if ← isNext stops then return emptyScalar mark else node block indentless fuel

/-- The items of a block sequence that began at `start`. -/
def blockItems (start : Mark) : Nat → Compose (List Node)
  | 0 => return []
  | fuel + 1 => do
    let t ← peek
    match t.lexeme with
    | .blockEntry => do
      skip
      let item ← nodeUnless [.blockEntry, .blockEnd] t.stop true false fuel
      return item :: (← blockItems start fuel)
    | .blockEnd => skip; return []
    | _ => unexpected "while parsing a block collection" start "<block end>" "found"

/-- The items of a sequence that is not indented; it ends with anything else. -/
def indentlessItems : Nat → Compose (List Node)
  | 0 => return []
  | fuel + 1 => do
    let t ← peek
    match t.lexeme with
    | .blockEntry => do
      skip
      let item ← nodeUnless [.blockEntry, .key, .value, .blockEnd] t.stop true false fuel
      return item :: (← indentlessItems fuel)
    | _ => return []

/-- The value of a key, which may be missing with its mark. -/
def valueOf (stops : List Lexeme) (block : Bool) : Nat → Compose Node
  | 0 => return emptyScalar ⟨0, 0⟩
  | fuel + 1 => do
    let t ← peek
    match t.lexeme with
    | .value => skip; nodeUnless stops t.stop block block fuel
    | _ => return emptyScalar t.start

/-- The entries of a block mapping that began at `start`. -/
def blockEntries (start : Mark) : Nat → Compose (List (Node × Node))
  | 0 => return []
  | fuel + 1 => do
    let t ← peek
    match t.lexeme with
    | .key => do
      skip
      let stops : List Lexeme := [.key, .value, .blockEnd]
      let k ← nodeUnless stops t.stop true true fuel
      let v ← valueOf stops true fuel
      return (k, v) :: (← blockEntries start fuel)
    | .blockEnd => skip; return []
    | _ => unexpected "while parsing a block mapping" start "<block end>" "found"

/-- The items of a sequence in brackets. An item with a key is a mapping of its own. -/
def flowItems (start : Mark) (first : Bool) : Nat → Compose (List Node)
  | 0 => return []
  | fuel + 1 => do
    if ← isNext [.flowSequenceEnd] then skip; return []
    if !first then
      if ← isNext [.flowEntry] then skip
      else unexpected "while parsing a flow sequence" start "',' or ']'" "got"
    let t ← peek
    match t.lexeme with
    | .flowSequenceEnd => skip; return []
    | .key => do
      skip
      let k ← nodeUnless [.value, .flowEntry, .flowSequenceEnd] t.stop false false fuel
      let v ← valueOf [.flowEntry, .flowSequenceEnd] false fuel
      return .mapping Tag.mapping [(k, v)] t.start :: (← flowItems start false fuel)
    | _ => do
      let item ← node false false fuel
      return item :: (← flowItems start false fuel)

/-- The entries of a mapping in braces. A node without a key's mark is a key without a value. -/
def flowEntries (start : Mark) (first : Bool) : Nat → Compose (List (Node × Node))
  | 0 => return []
  | fuel + 1 => do
    if ← isNext [.flowMappingEnd] then skip; return []
    if !first then
      if ← isNext [.flowEntry] then skip
      else unexpected "while parsing a flow mapping" start "',' or '\x7d'" "got"
    let t ← peek
    match t.lexeme with
    | .flowMappingEnd => skip; return []
    | .key => do
      skip
      let k ← nodeUnless [.value, .flowEntry, .flowMappingEnd] t.stop false false fuel
      let v ← valueOf [.flowEntry, .flowMappingEnd] false fuel
      return (k, v) :: (← flowEntries start false fuel)
    | _ => do
      let k ← node false false fuel
      let v := emptyScalar (← peek).start
      return (k, v) :: (← flowEntries start false fuel)

end

/-! ## Documents -/

/-- The handles that are known without a directive. -/
def usualHandles : List (String × String) := [("!", "!"), ("!!", Tag.standard)]

/-- Reads directives; tells whether a version was among them. -/
def directives : Nat → Bool → Compose Unit
  | 0, _ => return
  | fuel + 1, versioned => do
    let t ← peek
    match t.lexeme with
    | .directive (.version major _) =>
      skip
      if versioned then throw (.at_ t.start "found duplicate YAML directive")
      if major != 1 then
        throw (.at_ t.start "found incompatible YAML document (version 1.* is required)")
      directives fuel true
    | .directive (.tagHandle handle expansion) =>
      skip
      if ((← get).handles.lookup handle).isSome then
        throw (.at_ t.start ("duplicate tag handle " ++ Text.quoted handle))
      modify fun s => { s with handles := s.handles ++ [(handle, expansion)] }
      directives fuel versioned
    | .directive (.unknown _) => skip; directives fuel versioned
    | _ => return

/-- How far reading can go on. -/
def room : Compose Nat := return 4 * (← get).tokens.length + 4

def skipDocumentEnds : Nat → Compose Unit
  | 0 => return
  | fuel + 1 => do
    if ← isNext [.documentEnd] then skip; skipDocumentEnds fuel

def isDirective : Compose Bool := do
  match (← peek).lexeme with
  | .directive _ => return true
  | _ => return false

/-- Reads directives and the mark that begins a document; tells where they begin, or `none` at the
end of the text. -/
def documentStart : Compose (Option Mark) := do
  skipDocumentEnds (← room)
  let t ← peek
  if t.lexeme == .streamEnd then return none
  modify fun s => { s with handles := [] }
  directives (← room) false
  if !(← isNext [.documentStart]) then
    let t ← peek
    throw (.at_ t.start ("expected '<document start>', but found " ++ Text.quoted t.lexeme.name))
  skip
  modify fun s => { s with handles := s.handles ++ usualHandles }
  return some t.start

/-- The node of a document that is not marked, or of the first marked one. -/
def firstDocument : Compose (Option Node) := do
  let marked ← if ← isDirective then pure true else isNext [.documentStart, .streamEnd]
  if marked then
    match ← documentStart with
    | none => return none
    | some _ =>
      let ends ← if ← isDirective then pure true
        else isNext [.documentStart, .documentEnd, .streamEnd]
      if ends then return some (emptyScalar (← peek).start)
      else return some (← node true false (← room))
  else
    modify fun s => { s with handles := usualHandles }
    return some (← node true false (← room))

/-- The node of the only document. -/
def single : Compose (Option Node) := do
  match ← firstDocument with
  | none => return none
  | some root =>
    skipDocumentEnds 1
    match ← documentStart with
    | none => return some root
    | some second =>
      throw (.inside "expected a single document in the stream" root.mark second
        "but found another document")

end Compose

/-- The node of a text, if it holds a document at all. -/
def Node.ofTokens (t : Tokens) : Except Fault (Option Node) :=
  (Compose.single.run { tokens := t.tokens, fault := t.fault }).map Prod.fst

end EntityApi.Yaml
