import EntityApi.Failure
import EntityApi.Time.Iso
import EntityApi.Value.Basic

/-!
The text of a value. `text?` is the plain form, where a text stands for itself; `shown?` is the
form used inside lists and tables and in error texts, where texts are quoted and times are spelled
out part by part. Both fail only on whole numbers with more digits than the limit.
-/

namespace EntityApi.Value

open Text

def intText? (n : Int) : Result String :=
  match Numeral.write? n with
  | some cs => .ok (String.ofList cs)
  | none => mishap .badValue ("Exceeds the limit (4300 digits) for integer string conversion; " ++
      "use sys.set_int_max_str_digits() to increase the limit")

def momentString (m : Moment) : String := String.ofList (Iso.momentText ' ' m)

def dayString (d : Day) : String := String.ofList (Iso.dateText d.date)

def joined (items : List String) : String := ", ".intercalate items

/-- A span of time as days, seconds and microseconds, of which only the days may be negative. -/
def shownSpan (micros : Int) : String :=
  let days := micros / Moment.perDay
  let rest := micros % Moment.perDay
  let part (name : String) (n : Int) : List String :=
    if n == 0 then [] else [name ++ "=" ++ toString n]
  let parts := part "days" days ++ part "seconds" (rest / 1000000) ++
    part "microseconds" (rest % 1000000)
  "datetime.timedelta(" ++ (if parts.isEmpty then "0" else joined parts) ++ ")"

def shownOffset (o : Offset) : String :=
  if o.micros == 0 then "datetime.timezone.utc"
  else "datetime.timezone(" ++ shownSpan o.micros ++ ")"

def shownMoment (m : Moment) : String :=
  let d := m.date
  let c := m.clock
  let numbers := [d.year, d.month, d.day, c.hour, c.minute] ++
    (if c.second == 0 && c.micro == 0 then [] else [c.second]) ++
    (if c.micro == 0 then [] else [c.micro])
  let zone := match m.offset with
    | some o => ["tzinfo=" ++ shownOffset o]
    | none => []
  "datetime.datetime(" ++ joined (numbers.map toString ++ zone) ++ ")"

def shownDay (d : Day) : String :=
  "datetime.date(" ++ joined ([d.date.year, d.date.month, d.date.day].map toString) ++ ")"

mutual

def shown? : Value → Result String
  | null => .ok "None"
  | bool b => .ok (if b then "True" else "False")
  | int n => intText? n
  | real x => .ok x.text
  | text s => .ok (quoted s)
  | moment m => .ok (shownMoment m)
  | day d => .ok (shownDay d)
  | decimal d => .ok ("Decimal('" ++ d.text ++ "')")
  | bytes b => .ok (quotedBytes b)
  | list items => do return "[" ++ joined (← shownList? items) ++ "]"
  | pair a b => do return "(" ++ joined [← shown? a, ← shown? b] ++ ")"
  | set [] => .ok "set()"
  | set members => do return "\x7b" ++ joined (← shownList? members) ++ "\x7d"
  | map entries => do return "\x7b" ++ joined (← shownEntries? entries) ++ "\x7d"

def shownList? : List Value → Result (List String)
  | [] => .ok []
  | v :: vs => do return (← shown? v) :: (← shownList? vs)

def shownEntries? : List (Value × Value) → Result (List String)
  | [] => .ok []
  | (k, v) :: es => do return ((← shown? k) ++ ": " ++ (← shown? v)) :: (← shownEntries? es)

end

def text? : Value → Result String
  | text s => .ok s
  | moment m => .ok (momentString m)
  | day d => .ok (dayString d)
  | decimal d => .ok d.text
  | v => shown? v

@[simp] theorem text?_text (s : String) : text? (text s) = .ok s := rfl

end EntityApi.Value
