import EntityApi.Value.ToJson

/-!
Event logs. An event is written as one line of JSON with its time first; a field named like one of
the first two takes its place. Events below the threshold of the journal are dropped. A threshold of
zero leaves the decision to the surrounding process, which lets warnings through.
-/

namespace EntityApi.Log

def debug : Int := 10
def info : Int := 20
def warning : Int := 30
def error : Int := 40
def critical : Int := 50

/-- The names of thresholds. -/
def levelNames : List (String × Int) := [
  ("NOTSET", 0), ("DEBUG", debug), ("INFO", info), ("WARN", warning), ("WARNING", warning),
  ("ERROR", error), ("CRITICAL", critical), ("FATAL", critical)]

structure Event where
  name : String
  level : Int := info
  fields : List (String × Value) := []

namespace Event

/-- The parts of an event, which none of its fields can be named for. -/
def partNames : List String := ["logger", "event", "level"]

/-- An event whose fields are given as a table. -/
def ofTable (name : String) (level : Int) (fields : List (Value × Value)) : Result Event := do
  let named ← fields.mapM fun (key, v) =>
    match key with
    | .text s => .ok (s, v)
    | _ => mishap .badType "keywords must be strings"
  match named.find? fun e => partNames.contains e.1 with
  | some e => mishap .badType ("multiple values for argument " ++ Text.quoted e.1)
  | none => return { name := name, level := level, fields := named }

end Event

structure Journal where
  /-- The threshold as it was set: a whole number or a truth value. -/
  threshold : Value := .int info
  handlers : Nat := 1
  /-- The reading of the clock; nothing in a journal depends on time passing. -/
  now : Binary64 := .zero false
  lines : List String := []

namespace Journal

/-- The threshold in force. -/
def effective (j : Journal) : Int :=
  match j.threshold.index? with
  | some n => if n = 0 then warning else n
  | none => warning

def admits (j : Journal) (level : Int) : Bool := decide (0 < level) && decide (j.effective ≤ level)

/-- The fields that open every line. -/
def heading (j : Journal) (name : String) : List (String × Value) :=
  [("ts", .real j.now), ("event", .text name)]

def lineOf (j : Journal) (e : Event) : Result String := do
  let record := Entries.merge (j.heading e.name) e.fields
  return (← (Value.map (record.map fun (k, v) => (.text k, v))).toJson?).compact

def record (j : Journal) (e : Event) : Result Journal := do
  if j.admits e.level then return { j with lines := j.lines ++ [← j.lineOf e] } else return j

/-- The threshold that a value asks for: a number, or one of the names. -/
def thresholdOf (level : Value) : Result Value :=
  match level with
  | .int _ | .bool _ => .ok level
  | .text name =>
    match levelNames.lookup name with
    | some n => .ok (.int n)
    | none => mishap .badValue ("Unknown level: " ++ Text.quoted name)
  | v => do mishap .badType ("Level not an integer or a valid string: " ++ (← v.shown?))

/-- A journal that has somewhere to write to; the first handler sets the usual threshold. -/
def ready (j : Journal) : Journal :=
  if j.handlers = 0 then { j with handlers := 1, threshold := .int info } else j

/-- Prepares the journal and sets a threshold if one is given. What was prepared stays so when the
threshold is refused. -/
def configure (j : Journal) (level : Value) : Result Unit × Journal :=
  let j := j.ready
  if level.truthy then
    match thresholdOf level with
    | .ok t => (.ok (), { j with threshold := t })
    | .error f => (.error f, j)
  else (.ok (), j)

end Journal

/-- The name of the journal that all others belong to. -/
def rootName : String := "autogql"

/-- The full name of a journal: names outside the root's family are put under it. -/
def qualified (name : String) : String :=
  if name == rootName || name.startsWith (rootName ++ ".") then name else rootName ++ "." ++ name

end EntityApi.Log
