import EntityApi.Value.Shown
import EntityApi.Yaml.Binary
import EntityApi.Yaml.Node.Compose

/-!
The values of nodes. The tag of a scalar says how its text is read; the tag of a collection says
what is made of its parts. Where a mapping has merge keys, the entries of the mappings they name
come first and its own entries are stored over them.

Collections are filled level by level from the root. So of several faults the one nearest to the
root is reported, and of those on one level the first.
-/

namespace EntityApi.Yaml

open Text

/-! ## Scalars -/

namespace Content

def bad {α : Type} (kind : Accident) (text : String) : Except Fault α := .error (.accident kind text)

def ofResult {α : Type} (mark : Mark) : Result α → Except Fault α
  | .ok a => .ok a
  | .error (.accident kind text) => .error (.accident kind text)
  | .error f => .error (.at_ mark f.message)

/-- The value of a digit in bases up to 36. -/
def digitIn? (base : Nat) (c : Char) : Option Nat :=
  let lower := Numeral.lowerAscii c
  let n? := (digitValue? c).orElse fun _ =>
    if decide ('a' ≤ lower ∧ lower ≤ 'z') then some (lower.toNat - 87) else none
  n?.filter (· < base)

/-- The mark that may stand before the digits of a base. -/
def baseMark? : Nat → Option Char
  | 2 => some 'b'
  | 8 => some 'o'
  | 16 => some 'x'
  | _ => none

/-- A whole number in base 2, 8 or 16, without underscores. -/
def wholeIn (base : Nat) (s : List Char) : Except Fault Int :=
  let (negative, body) := Numeral.splitSign (Numeral.trimNumber s)
  let body := match body with
    | '0' :: c :: rest => if some (Numeral.lowerAscii c) == baseMark? base then rest else body
    | _ => body
  match body.mapM (digitIn? base) with
  | some (d :: ds) => .ok (Numeral.signed negative ((d :: ds).foldl (fun n d => base * n + d) 0))
  | _ => bad .badValue ("invalid literal for int() with base " ++ toString base ++ ": " ++
      quoted (String.ofList s))

/-- A decimal whole number. -/
def whole (s : List Char) : Except Fault Int :=
  match Numeral.readInteger s with
  | .ok n => .ok n
  | .error .malformed =>
    bad .badValue ("invalid literal for int() with base 10: " ++ quoted (String.ofList s))
  | .error (.tooLong digits) =>
    bad .badValue ("Exceeds the limit (4300 digits) for integer string conversion: value has " ++
      toString digits ++ " digits; use sys.set_int_max_str_digits() to increase the limit")

/-- Splits a text at every colon. -/
def splitColons : List Char → List (List Char)
  | [] => [[]]
  | c :: s =>
    if c == ':' then [] :: splitColons s
    else match splitColons s with
      | part :: parts => (c :: part) :: parts
      | [] => [[c]]

/-- The sign of a number and the rest of it, underscores left out; an empty text is refused. -/
def signAndBody (text : String) : Except Fault (Bool × List Char) :=
  let s := text.toList.filter (· != '_')
  if s.isEmpty then bad .badIndex "string index out of range" else .ok (Numeral.splitSign s)

def readWhole (text : String) : Except Fault Int := do
  let (negative, body) ← signAndBody text
  let sign : Int := if negative then -1 else 1
  match body with
  | ['0'] => return 0
  | '0' :: 'b' :: rest => return sign * (← wholeIn 2 rest)
  | '0' :: 'x' :: rest => return sign * (← wholeIn 16 rest)
  | '0' :: _ => return sign * (← wholeIn 8 body)
  | [] => bad .badIndex "string index out of range"
  | _ =>
    if body.contains ':' then
      let parts ← (splitColons body).mapM whole
      return sign * parts.foldl (fun n part => 60 * n + part) 0
    else return sign * (← whole body)

/-- A real number in positional or scientific notation. -/
def real (s : List Char) : Except Fault Binary64 :=
  match Numeral.readReal? s with
  | some x => .ok x
  | none => bad .badValue ("could not convert string to float: " ++ quoted (String.ofList s))

/-- The number nearest to the sum of `total` and `60 ^ power` times `x`, the product being rounded
before it is added. -/
def addSixties (total x : Binary64) (power : Nat) : Binary64 :=
  match total.toExact, (Binary64.ofExact (times x.toExact)).toExact with
  | .ratio a b, .ratio c d => .ofExact (.ratio (a * d + c * b) (b * d))
  | .nan, _ => .nan
  | _, .nan => .nan
  | .infinite n, .infinite m => if n == m then .infinite n else .nan
  | .infinite n, _ => .infinite n
  | _, .infinite n => .infinite n
where
  times : Exact → Exact
    | .ratio num den => .ratio (num * (Nat.pow 60 power : Nat)) den
    | x => x

def signedReal (negative : Bool) (x : Binary64) : Binary64 := if negative then x.neg else x

def readReal (text : String) : Except Fault Binary64 := do
  let (negative, body) ← signAndBody (String.ofList (text.toList.map Numeral.lowerAscii))
  if body == ".inf".toList then return .infinite negative
  if body == ".nan".toList then return .nan
  if body.contains ':' then
    let parts ← (splitColons body).mapM real
    let total := (parts.reverse.zipIdx).foldl (fun sum e => addSixties sum e.1 e.2) (.zero false)
    return signedReal negative total
  else return signedReal negative (← real body)

def readTruth (text : String) : Except Fault Bool :=
  let word := String.ofList (text.toList.map Numeral.lowerAscii)
  match truthWords.lookup word with
  | some b => .ok b
  | none => bad .missingKey (quoted word)

/-! ### Times -/

/-- What is wrong with a day that the calendar does not have. -/
def dayFault (d : Calendar.Date) : String :=
  if d.year == 0 then "year 0 is out of range"
  else if d.month == 0 || 12 < d.month then "month must be in 1..12"
  else "day is out of range for month"

def day (t : Timestamp) : Except Fault Day :=
  let d : Calendar.Date := ⟨t.year, t.month, t.day⟩
  match Day.ofDate? d with
  | some day => .ok day
  | none => bad .badValue (dayFault d)

def clockFault (c : Moment.Clock) : String :=
  if 24 ≤ c.hour then "hour must be in 0..23"
  else if 60 ≤ c.minute then "minute must be in 0..59"
  else "second must be in 0..59"

def offset (minutes : Int) : Except Fault Offset :=
  match Offset.ofMicros? (minutes * 60000000) with
  | some o => .ok o
  | none => bad .badValue
      ("offset must be a timedelta strictly between -timedelta(hours=24) and timedelta(hours=24), not " ++
        Value.shownSpan (minutes * 60000000) ++ ".")

def readTime (text : String) : Except Fault Value :=
  match Timestamp.read? text.toList with
  | none => bad .noAttribute "'NoneType' object has no attribute 'groupdict'"
  | some t =>
    match t.clock with
    | none => do return .day (← day t)
    | some (hour, minute, second, micro) => do
      let offset ← t.offset.mapM offset
      let day ← day t
      let clock : Moment.Clock := ⟨hour, minute, second, micro⟩
      match Moment.ofParts? day clock offset with
      | some m => return .moment m
      | none => bad .badValue (clockFault clock)

def readBinary (mark : Mark) (text : String) : Except Fault (List UInt8) :=
  if text.toList.any fun c => decide (128 ≤ c.toNat) then
    .error (.at_ mark "failed to convert base64 data into ascii")
  else
    match Binary.decode text.toList with
    | .ok bytes => .ok bytes
    | .error f => .error (.at_ mark ("failed to decode base64 data: " ++ f.message))

/-! ### Tags -/

def scalarTags : List String :=
  [Tag.null, Tag.bool, Tag.int, Tag.float, Tag.binary, Tag.timestamp, Tag.text]

def unknownTag (tag : String) (mark : Mark) : Fault :=
  .at_ mark ("could not determine a constructor for the tag " ++ quoted tag)

/-- The value of a text under the tag of a scalar. -/
def scalar (tag : String) (mark : Mark) (text : String) : Except Fault Value :=
  if tag == Tag.null then .ok .null
  else if tag == Tag.bool then (readTruth text).map .bool
  else if tag == Tag.int then (readWhole text).map .int
  else if tag == Tag.float then (readReal text).map .real
  else if tag == Tag.binary then (readBinary mark text).map .bytes
  else if tag == Tag.timestamp then readTime text
  else if tag == Tag.text then .ok (.text text)
  else .error (unknownTag tag mark)

/-- What a collection is made into. -/
inductive Shape where
  | sequence
  | mapping
  /-- A sequence of pairs, each written as a mapping with one entry. -/
  | pairs (context : String)
  /-- The keys of a mapping. -/
  | set

def shapes : List (String × Shape) := [
  (Tag.sequence, .sequence), (Tag.mapping, .mapping), (Tag.set, .set),
  (Tag.orderedMap, .pairs "while constructing an ordered map"),
  (Tag.pairs, .pairs "while constructing pairs")]

/-- The fault of a collection that is written as a node of another kind. -/
def wrongKind (shape : Shape) (kind : String) (mark : Mark) : Fault :=
  match shape with
  | .sequence => .at_ mark ("expected a sequence node, but found " ++ kind)
  | .pairs context => .inside context mark mark ("expected a sequence, but found " ++ kind)
  | _ => .at_ mark ("expected a mapping node, but found " ++ kind)

end Content

/-! ## Merging -/

namespace Node

/-- The entries of a mapping. -/
def entries? : Node → Option (List (Node × Node))
  | .mapping _ entries _ => some entries
  | _ => none

/-- The entries that a merge key takes in: those of a mapping, or of the mappings of a sequence, the
last ones first. -/
def merged? : Node → Option (List (Node × Node))
  | .mapping _ entries _ => some entries
  | .sequence _ items _ =>
    (items.mapM entries?).map fun l => l.reverse.flatten
  | .scalar _ _ _ => none

/-- The entries that an entry takes in, if it is one with a merge key. -/
def mergedBy? (entry : Node × Node) : Option (List (Node × Node)) :=
  if entry.1.tag == Tag.merge then entry.2.merged? else none

/-- Puts the entries of merge keys first. A merge key of something else stays. -/
def mergeEntries (entries : List (Node × Node)) : List (Node × Node) :=
  (entries.filterMap mergedBy?).flatten ++ entries.filter fun e => (mergedBy? e).isNone

mutual

/-- The node without merge keys. -/
def unmerged : Node → Node
  | .scalar tag text mark => .scalar tag text mark
  | .sequence tag items mark => .sequence tag (unmergedItems items) mark
  | .mapping tag entries mark => .mapping tag (mergeEntries (unmergedEntries entries)) mark

def unmergedItems : List Node → List Node
  | [] => []
  | n :: ns => unmerged n :: unmergedItems ns

def unmergedEntries : List (Node × Node) → List (Node × Node)
  | [] => []
  | (k, v) :: es => (unmerged k, unmerged v) :: unmergedEntries es

end

end Node

/-! ## Values -/

/-- The value of a node, or its fault with the level it is found on. -/
abbrev Built := Except (Nat × Fault) Value

namespace Built

/-- The fault on the lowest level, and of several the first. -/
def firstFault : List Built → Option (Nat × Fault)
  | [] => none
  | .ok _ :: rest => firstFault rest
  | .error (level, f) :: rest =>
    match firstFault rest with
    | some (other, g) => if other < level then some (other, g) else some (level, f)
    | none => some (level, f)

/-- A fault of this node itself. -/
def now {α : Type} (f : Fault) : Except (Nat × Fault) α := .error (0, f)

/-- A fault found when the node is filled. -/
def later {α : Type} (f : Fault) : Except (Nat × Fault) α := .error (1, f)

/-- What is made of the parts, unless one has a fault. -/
def ofParts (parts : List Built) (make : List Value → Value) : Built :=
  match firstFault parts with
  | some (level, f) => .error (level + 1, f)
  | none => .ok (make (parts.filterMap Except.toOption))

/-- A key as a part of its mapping. Collections are no keys, whatever is in them. -/
def asKey (start mark : Mark) (key : Built) : Built :=
  match key with
  | .error (0, f) => .error (0, f)
  | .ok v => if v.isKey then .ok v else unhashable
  | .error _ => unhashable
where
  unhashable := now (.inside "while constructing a mapping" start mark "found unhashable key")

/-- The entries of keys and values that alternate. -/
def paired : List Value → List (Value × Value)
  | k :: v :: rest => (k, v) :: paired rest
  | _ => []

end Built

namespace Content

/-- The fault of a merge key that is still there: what it names is nothing to take in. -/
def mergeFault? (start : Mark) (entries : List (Node × Node)) : Option Fault :=
  (entries.find? fun e => e.1.tag == Tag.merge).map fun e =>
    let complain (n : Node) (what : String) : Fault :=
      .inside "while constructing a mapping" start n.mark
        ("expected " ++ what ++ " for merging, but found " ++ n.kind)
    match e.2 with
    | .sequence _ items _ =>
      complain ((items.find? fun n => n.entries?.isNone).getD e.2) "a mapping"
    | n => complain n "a mapping or list of mappings"

mutual

/-- The text of a node where a scalar is wanted. A mapping stands for the value of its value key. -/
def standIn? : Node → Option String
  | .scalar _ text _ => some text
  | .sequence _ _ _ => none
  | .mapping _ entries _ => standInOf? entries

def standInOf? : List (Node × Node) → Option String
  | [] => none
  | (k, v) :: es => if k.tag == Tag.value then standIn? v else standInOf? es

end

mutual

/-- The value of a node without merge keys. -/
def build : Node → Built
  | .scalar tag text mark =>
    match shapes.lookup tag with
    | some shape => Built.later (wrongKind shape "scalar" mark)
    | none => (scalar tag mark text).mapError (0, ·)
  | .sequence tag items mark =>
    match shapes.lookup tag with
    | some .sequence => Built.ofParts (buildItems items) .list
    | some (.pairs context) =>
      Built.ofParts (buildPairs context mark items) fun parts =>
        .list ((Built.paired parts).map fun e => .pair e.1 e.2)
    | some shape => Built.later (wrongKind shape "sequence" mark)
    | none =>
      Built.now (if scalarTags.contains tag then .at_ mark "expected a scalar node, but found sequence"
        else unknownTag tag mark)
  | .mapping tag entries mark =>
    match shapes.lookup tag with
    | some .mapping =>
      match mergeFault? mark entries with
      | some f => Built.later f
      | none => Built.ofParts (buildEntries mark entries) fun parts =>
          .map (Entries.ofList (Built.paired parts))
    | some .set =>
      match mergeFault? mark entries with
      | some f => Built.later f
      | none => Built.ofParts (buildEntries mark entries) fun parts =>
          .set (Entries.keys (Entries.ofList (Built.paired parts)))
    | some shape => Built.later (wrongKind shape "mapping" mark)
    | none =>
      if scalarTags.contains tag then
        match standInOf? entries with
        | some text => (scalar tag mark text).mapError (0, ·)
        | none => Built.now (.at_ mark "expected a scalar node, but found mapping")
      else Built.now (unknownTag tag mark)

def buildItems : List Node → List Built
  | [] => []
  | n :: ns => build n :: buildItems ns

/-- The keys and the values of entries, alternating. A value key is a text here. -/
def buildEntries (start : Mark) : List (Node × Node) → List Built
  | [] => []
  | (k, v) :: es =>
    let key := if k.tag == Tag.value then textOf k else build k
    Built.asKey start k.mark key :: build v :: buildEntries start es

/-- The keys and the values of pairs, alternating. -/
def buildPairs (context : String) (start : Mark) : List Node → List Built
  | [] => []
  | n :: ns =>
    let parts := match n with
      | .mapping _ entries mark =>
        if entries.length == 1 then buildPlain entries
        else [Built.now (.inside context start mark
          ("expected a single mapping item, but found " ++ toString entries.length ++ " items"))]
      | n => [Built.now (.inside context start n.mark
          ("expected a mapping of length 1, but found " ++ n.kind))]
    parts ++ buildPairs context start ns

/-- The keys and the values of entries as they are, alternating. -/
def buildPlain : List (Node × Node) → List Built
  | [] => []
  | (k, v) :: es => build k :: build v :: buildPlain es

/-- The text of a scalar, whatever its tag. -/
def textOf : Node → Built
  | .scalar _ text _ => .ok (.text text)
  | n => Built.now (.at_ n.mark ("expected a scalar node, but found " ++ n.kind))

end

end Content

/-- The value that the text of a document spells; null if there is no document. `name` is what error
texts call the text. -/
def read (name text : String) : Result Value :=
  let value : Except Fault Value := do
    match ← Node.ofTokens (Tokens.ofText text.toList) with
    | none => return .null
    | some n => (Content.build n.unmerged).mapError Prod.snd
  value.mapError (Fault.toFailure name)

end EntityApi.Yaml
