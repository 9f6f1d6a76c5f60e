import EntityApi.Value.Layout

/-!
Templates: texts with fields in braces. A field names a value, goes into its parts by `[..]` and
`.name`, and may ask for a written form with `!` and for a layout with `:`. A brace that stands for
itself is doubled. A layout may hold fields too, one level deep. Fields are filled in from the left,
and a template that breaks off is refused only after the fields before the break are filled in.
-/

namespace EntityApi

open Text

structure TemplateField where
  name : List Char
  /-- The letter after `!`. -/
  form : Option Char
  /-- The layout, as it is written. -/
  layout : List Char
  deriving Repr, DecidableEq

inductive TemplatePiece where
  | literal (text : List Char)
  | field (f : TemplateField)
  deriving Repr, DecidableEq

/-- Where a template breaks off. -/
inductive TemplateFault where
  | single (brace : Char)
  | braceInName
  | unclosedName
  | noForm
  | afterForm
  | unclosedLayout
  deriving Repr, DecidableEq

namespace TemplateFault

def message : TemplateFault → String
  | single brace => "Single '" ++ String.ofList [brace] ++ "' encountered in format string"
  | braceInName => "unexpected '\x7b' in field name"
  | unclosedName => "expected '\x7d' before end of string"
  | noForm => "end of string while looking for conversion specifier"
  | afterForm => "expected ':' after conversion specifier"
  | unclosedLayout => "unmatched '\x7b' in format spec"

end TemplateFault

structure Template where
  pieces : List TemplatePiece
  fault : Option TemplateFault

namespace Template

def opening : Char := '\x7b'

def closing : Char := '\x7d'

def isBrace (c : Char) : Bool := c == opening || c == closing

/-- The name of a field, the character that ends it, and what follows. Inside square brackets every
character but the closing one belongs to the name. -/
def takeName (inBrackets : Bool) : List Char → Except TemplateFault (List Char × Char × List Char)
  | [] => .error .unclosedName
  | c :: s =>
    if inBrackets then do
      let (name, stop, rest) ← takeName (c != ']') s
      return (c :: name, stop, rest)
    else if c == opening then .error .braceInName
    else if c == closing || c == ':' || c == '!' then .ok ([], c, s)
    else do
      let (name, stop, rest) ← takeName (c == '[') s
      return (c :: name, stop, rest)

/-- A layout up to the brace that closes its field, `depth` being the braces open in it. -/
def takeLayout (depth : Nat) : List Char → Except TemplateFault (List Char × List Char)
  | [] => .error .unclosedLayout
  | c :: s =>
    if c == closing && depth == 0 then .ok ([], s)
    else do
      let depth := if c == opening then depth + 1 else if c == closing then depth - 1 else depth
      let (layout, rest) ← takeLayout depth s
      return (c :: layout, rest)

/-- A field whose opening brace has been read. -/
def takeField (s : List Char) : Except TemplateFault (TemplateField × List Char) := do
  let (name, stop, rest) ← takeName false s
  if stop == closing then return (⟨name, none, []⟩, rest)
  if stop == ':' then
    let (layout, rest) ← takeLayout 0 rest
    return (⟨name, none, layout⟩, rest)
  match rest with
  | [] => .error .noForm
  | [_] => .error .unclosedLayout
  | form :: c :: rest =>
    if c == closing then return (⟨name, some form, []⟩, rest)
    else if c == ':' then
      let (layout, rest) ← takeLayout 0 rest
      return (⟨name, some form, layout⟩, rest)
    else .error .afterForm

/-- Reads at most `fuel` pieces. -/
def parseWith : Nat → List Char → List TemplatePiece × Option TemplateFault
  | 0, _ => ([], none)
  | fuel + 1, s =>
    let plain := s.takeWhile (!isBrace ·)
    let more (piece : TemplatePiece) (rest : List Char) :=
      let (pieces, fault) := parseWith fuel rest
      (piece :: pieces, fault)
    match s.dropWhile (!isBrace ·) with
    | [] => ([.literal plain], none)
    | c :: rest =>
      if rest.head? == some c then more (.literal (plain ++ [c])) (rest.drop 1)
      else if c == closing || rest.isEmpty then ([.literal plain], some (.single c))
      else
        match takeField rest with
        | .error fault => ([.literal plain], some fault)
        | .ok (f, rest) =>
          let (pieces, fault) := more (.field f) rest
          (.literal plain :: pieces, fault)

/-- Every piece takes a character at least, so that the length of a text bounds their number. -/
def parse (s : List Char) : Template :=
  let (pieces, fault) := parseWith (s.length + 1) s
  ⟨pieces, fault⟩

/-! ## Filling in -/

/-- The parts of a value: the item at an index, or what is stored under a name. -/
def itemOf (v : Value) (name : List Char) (index : Option Nat) : Result Value :=
  match v, index with
  | .map entries, some i =>
    match Entries.get? entries (.int i) with
    | some found => .ok found
    | none => mishap .missingKey (toString i)
  | .map entries, none =>
    match Entries.get? entries (.text (String.ofList name)) with
    | some found => .ok found
    | none => mishap .missingKey (quoted (String.ofList name))
  | .text s, some i =>
    match s.toList[i]? with
    | some c => .ok (.text (String.ofList [c]))
    | none => mishap .badIndex "string index out of range"
  | .list items, some i =>
    match items[i]? with
    | some found => .ok found
    | none => mishap .badIndex "list index out of range"
  | .bytes b, some i =>
    match b[i]? with
    | some x => .ok (.int x.toNat)
    | none => mishap .badIndex "index out of range"
  | .text _, none => mishap .badType "string indices must be integers, not 'str'"
  | .list _, none => mishap .badType "list indices must be integers or slices, not str"
  | .bytes _, none => mishap .badType "byte indices must be integers or slices, not str"
  | v, _ => mishap .badType ("'" ++ v.kind ++ "' object is not subscriptable")

/-- The index that a name is, if it consists of digits alone. -/
def indexOf? (name : List Char) : Result (Option Nat) := do
  match ← Layout.takeNumber? name with
  | (some i, []) => return some i
  | _ => return none

/-- Goes into a value by the steps of a field's name, each of which takes a character at least. -/
def follow : Nat → Value → List Char → Result Value
  | 0, v, _ => .ok v
  | _ + 1, v, [] => .ok v
  | fuel + 1, v, c :: s =>
    if c == '.' then
      let name := s.takeWhile fun d => d != '.' && d != '['
      if name.isEmpty then mishap .badValue "Empty attribute in format string"
      else mishap .noAttribute ("'" ++ v.kind ++ "' object has no attribute " ++
        quoted (String.ofList name))
    else if c == '[' then do
      let name := s.takeWhile (· != ']')
      let index ← indexOf? name
      if name.isEmpty then mishap .badValue "Empty attribute in format string"
      follow fuel (← itemOf v name index) ((s.dropWhile (· != ']')).drop 1)
    else mishap .badValue "Only '.' or '[' may follow ']' in format field specifier"

/-- The value that a field names. There are no values without names, so that a number or nothing in
the place of a name finds none. -/
def valueOf (values : List (String × Value)) (name : List Char) : Result Value := do
  let first := name.takeWhile fun c => c != '.' && c != '['
  let steps := name.dropWhile fun c => c != '.' && c != '['
  match ← indexOf? first with
  | some i =>
    mishap .badIndex ("Replacement index " ++ toString i ++ " out of range for positional args tuple")
  | none =>
    if first.isEmpty then mishap .badIndex "Replacement index 0 out of range for positional args tuple"
    match values.lookup (String.ofList first) with
    | none => mishap .missingKey (quoted (String.ofList first))
    | some v => follow steps.length v steps

def converted (v : Value) : Option Char → Result Value
  | none => .ok v
  | some 'r' => v.shown?.map Value.text
  | some 's' => v.text?.map Value.text
  | some 'a' => do
    let shown ← v.shown?
    return .text (String.ofList (shown.toList.flatMap fun c =>
      if c.toNat < 128 then [c] else numberedEscape c.toNat))
  | some c => mishap .badValue ("Unknown conversion specifier " ++
      (if 32 < c.toNat && c.toNat < 127 then String.ofList [c]
        else "\\x" ++ String.ofList (Nat.toDigits 16 c.toNat)))

/-- Fills in a text whose fields may be nested `depth` levels deep. -/
def fillWith (values : List (String × Value)) : Nat → List Char → Result String
  | 0, _ => mishap .badValue "Max string recursion exceeded"
  | depth + 1, s => do
    let t := parse s
    let texts ← t.pieces.mapM fun piece =>
      match piece with
      | .literal text => .ok (String.ofList text)
      | .field f => do
        let v ← converted (← valueOf values f.name) f.form
        let layout ← if f.layout.contains opening then (fillWith values depth f.layout).map String.toList
          else .ok f.layout
        v.laidOut layout
    match t.fault with
    | some fault => mishap .badValue fault.message
    | none => return String.join texts

/-- Fills in a template with named values. -/
def fill (values : List (String × Value)) (template : String) : Result String :=
  fillWith values 2 template.toList

end Template

end EntityApi
