import EntityApi.Text.Quoted

/-!
JSON text in ASCII. Numbers are kept as the text they are written with; names keep their order. The
compact form puts a blank after every comma and colon and the dense form puts none; the indented form
puts each item on a line of its own, two blanks deeper than its container.
-/

namespace EntityApi

inductive Json where
  | null
  | bool (b : Bool)
  | number (text : String)
  | string (s : String)
  | array (items : List Json)
  | object (members : List (String × Json))
  deriving Inhabited

namespace Json

/-- The escape of a UTF-16 unit. -/
def unitEscape (n : Nat) : List Char := '\\' :: 'u' :: Text.hexDigits 4 n

/-- The written form of a character. What lies outside printable ASCII is escaped by its UTF-16
units. -/
def charText (c : Char) : List Char :=
  if c == '"' then ['\\', '"']
  else if c == '\\' then ['\\', '\\']
  else if c == '\n' then ['\\', 'n']
  else if c == '\r' then ['\\', 'r']
  else if c == '\t' then ['\\', 't']
  else if c.toNat == 12 then ['\\', 'f']
  else if c.toNat == 8 then ['\\', 'b']
  else if 32 ≤ c.toNat ∧ c.toNat < 127 then [c]
  else if c.toNat < 0x10000 then unitEscape c.toNat
  else
    let n := c.toNat - 0x10000
    unitEscape (0xD800 + n / 0x400) ++ unitEscape (0xDC00 + n % 0x400)

def stringText (s : String) : String :=
  String.ofList ('"' :: (s.toList.flatMap charText ++ ['"']))

mutual

/-- The form on one line, given what separates items and what separates names from values. -/
def onLine (comma colon : String) : Json → String
  | null => "null"
  | bool b => if b then "true" else "false"
  | number text => text
  | string s => stringText s
  | array items => "[" ++ comma.intercalate (itemsOnLine comma colon items) ++ "]"
  | object members => "\x7b" ++ comma.intercalate (membersOnLine comma colon members) ++ "\x7d"

def itemsOnLine (comma colon : String) : List Json → List String
  | [] => []
  | j :: js => onLine comma colon j :: itemsOnLine comma colon js

def membersOnLine (comma colon : String) : List (String × Json) → List String
  | [] => []
  | (name, j) :: js => (stringText name ++ colon ++ onLine comma colon j) :: membersOnLine comma colon js

end

def compact (j : Json) : String := onLine ", " ": " j

def dense (j : Json) : String := onLine "," ":" j

/-- Items between brackets, one to a line. -/
def block (opening closing : String) (depth : Nat) (items : List String) : String :=
  if items.isEmpty then opening ++ closing
  else
    let margin := "\n" ++ String.ofList (List.replicate (2 * depth) ' ')
    opening ++ margin ++ "  " ++ ("," ++ margin ++ "  ").intercalate items ++ margin ++ closing

mutual

/-- The indented form of a value whose container stands `depth` levels deep. -/
def indented (depth : Nat) : Json → String
  | null => "null"
  | bool b => if b then "true" else "false"
  | number text => text
  | string s => stringText s
  | array items => block "[" "]" depth (indentedItems (depth + 1) items)
  | object members => block "\x7b" "\x7d" depth (indentedMembers (depth + 1) members)

def indentedItems (depth : Nat) : List Json → List String
  | [] => []
  | j :: js => indented depth j :: indentedItems depth js

def indentedMembers (depth : Nat) : List (String × Json) → List String
  | [] => []
  | (name, j) :: js => (stringText name ++ ": " ++ indented depth j) :: indentedMembers depth js

end

end Json

end EntityApi
