/-!
`LIKE` patterns with the escape `!`. A percent sign stands for any run of characters, an underscore
for any one character, and an exclamation mark makes the next sign stand for itself; at the end of
a pattern it stands for itself too. A pattern matches a whole text, and also a text that is
followed by one line feed.
-/

namespace EntityApi.Like

inductive Piece where
  | exactly (s : List Char)
  | oneChar
  | anyRun
  deriving Repr, DecidableEq

def escapeSign : Char := '!'

/-- Reads a pattern given as a series of signs, which are single characters in a text. -/
def piecesOf : List (List Char) → List Piece
  | [] => []
  | sign :: rest =>
    if sign == [escapeSign] then
      match rest with
      | [] => [.exactly sign]
      | next :: rest => .exactly next :: piecesOf rest
    else if sign == ['%'] then .anyRun :: piecesOf rest
    else if sign == ['_'] then .oneChar :: piecesOf rest
    else .exactly sign :: piecesOf rest

def parse (pattern : List Char) : List Piece := piecesOf (pattern.map ([·]))

/-- Whether the pieces make up the whole text. -/
def covers : List Piece → List Char → Bool
  | [], s => s.isEmpty
  | .exactly t :: ps, s => t.isPrefixOf s && covers ps (s.drop t.length)
  | .oneChar :: _, [] => false
  | .oneChar :: ps, _ :: s => covers ps s
  | .anyRun :: ps, [] => covers ps []
  | .anyRun :: ps, c :: s => covers ps (c :: s) || covers (.anyRun :: ps) s
termination_by ps s => (ps.length, s.length)

/-- Whether the pieces match the text, or the text without a final line feed. -/
def accepts (ps : List Piece) (s : List Char) : Bool :=
  covers ps s || (s.getLast? == some '\n' && covers ps s.dropLast)

def isSign (c : Char) : Bool := c == escapeSign || c == '%' || c == '_'

/-- The text as a pattern that stands for itself: an exclamation mark before every sign. -/
def escapeChars (s : List Char) : List Char :=
  s.flatMap fun c => if isSign c then [escapeSign, c] else [c]

def escape (s : String) : String := String.ofList (escapeChars s.toList)

end EntityApi.Like
