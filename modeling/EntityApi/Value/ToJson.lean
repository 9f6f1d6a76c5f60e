import EntityApi.Json
import EntityApi.Value.Shown

/-!
Values as JSON. Times, decimals and bytes have no JSON form and become their texts; a name of a
table must be a text, a number, a truth value or null.
-/

namespace EntityApi.Value

def realJson (x : Binary64) : String :=
  match x with
  | .nan => "NaN"
  | .infinite negative => if negative then "-Infinity" else "Infinity"
  | _ => x.text

def jsonName : Value → Result String
  | text s => .ok s
  | null => .ok "null"
  | bool b => .ok (if b then "true" else "false")
  | int n => intText? n
  | real x => .ok (realJson x)
  | v => mishap .badType ("keys must be str, int, float, bool or None, not " ++ v.kind)

mutual

def toJson? : Value → Result Json
  | null => .ok .null
  | bool b => .ok (.bool b)
  | int n => do return .number (← intText? n)
  | real x => .ok (.number (realJson x))
  | text s => .ok (.string s)
  | list items => do return .array (← jsonItems? items)
  | pair a b => do return .array [← toJson? a, ← toJson? b]
  | map entries => do return .object (← jsonMembers? entries)
  | v => do return .string (← text? v)

def jsonItems? : List Value → Result (List Json)
  | [] => .ok []
  | v :: vs => do return (← toJson? v) :: (← jsonItems? vs)

def jsonMembers? : List (Value × Value) → Result (List (String × Json))
  | [] => .ok []
  | (k, v) :: es => do return ((← jsonName k), (← toJson? v)) :: (← jsonMembers? es)

end

end EntityApi.Value
