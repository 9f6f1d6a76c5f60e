import EntityApi.Text.Utf8
import EntityApi.Number.Numeral
import EntityApi.Yaml.Cursor
import EntityApi.Yaml.Token

/-!
Reading the words that are no content: directives, anchors, aliases and tags. In tags a percent sign
and two hexadecimal digits stand for a byte of UTF-8.
-/

namespace EntityApi.Yaml.Scan

open Text

def hexValue (c : Char) : Nat :=
  if c.isDigit then c.toNat - 48 else (Numeral.lowerAscii c).toNat - 87

def hexNumber (s : List Char) : Nat := s.foldl (fun n c => 16 * n + hexValue c) 0

/-- Decodes UTF-8 in full; `none` if any byte is out of place. -/
def decodeAll? : Nat → List UInt8 → Option (List Char)
  | _, [] => some []
  | 0, _ => none
  | fuel + 1, bytes => do
    let (c, size) ← decodeChar? bytes
    return c :: (← decodeAll? fuel (bytes.drop size))

/-- The bytes of a run of escapes. -/
def escapedBytes (context : String) (start : Mark) : Nat → Scan (List UInt8)
  | 0 => return []
  | fuel + 1 => do
    if (← peek) != some '%' then return []
    skip 1
    for k in [0, 1] do
      if !(← peekAt k).any isHexDigit then
        expected context start "URI escape sequence of 2 hexadecimal numbers" k
    let digits := (← get).rest.take 2
    skip 2
    return UInt8.ofNat (hexNumber digits) :: (← escapedBytes context start fuel)

def escapes (kind : String) (start : Mark) : Scan (List Char) := do
  let here ← mark
  let bytes ← escapedBytes ("while scanning a " ++ kind) start (← room)
  match decodeAll? bytes.length bytes with
  | some s => return s
  | none => fault (.inside ("while scanning a " ++ kind) start here "'utf-8' codec can't decode bytes")

/-- The characters of an address, other than the percent sign. -/
def isUriChar (c : Char) : Bool := isWordChar c || ";/?:@&=+$,.!~*'()[]".toList.contains c

def uriParts (kind : String) (start : Mark) : Nat → Scan (List Char)
  | 0 => return []
  | fuel + 1 => do
    let run ← takeWhile isUriChar
    if (← peek) == some '%' then
      let decoded ← escapes kind start
      return run ++ decoded ++ (← uriParts kind start fuel)
    else return run

/-- An address, which is not empty. -/
def uri (kind : String) (start : Mark) : Scan String := do
  let next ← peek
  if !next.any fun c => isUriChar c || c == '%' then
    expected ("while parsing a " ++ kind) start "URI" 0
  return String.ofList (← uriParts kind start (← room))

/-- A handle: exclamation marks around a word that may be missing, or a single mark. -/
def tagHandle (kind : String) (start : Mark) : Scan String := do
  let context := "while scanning a " ++ kind
  if (← peek) != some '!' then expected context start "'!'" 0
  if (← peekAt 1) == some ' ' then skip 1; return "!"
  skip 1
  let word ← takeWhile isWordChar
  if (← peek) != some '!' then expected context start "'!'" 0
  skip 1
  return String.ofList ('!' :: word ++ ['!'])

/-! ## Directives -/

def directiveContext : String := "while scanning a directive"

def versionNumber (start : Mark) : Scan Nat := do
  if !(← peek).any Char.isDigit then expected directiveContext start "a digit" 0
  return Numeral.ofDigits ((← takeWhile Char.isDigit).filterMap asciiDigit?)

def version (start : Mark) : Scan Directive := do
  skipWhile (· == ' ')
  let major ← versionNumber start
  if (← peek) != some '.' then expected directiveContext start "a digit or '.'" 0
  skip 1
  let minor ← versionNumber start
  if !endsWord (← peek) then expected directiveContext start "a digit or ' '" 0
  return .version major minor

def tagDirective (start : Mark) : Scan Directive := do
  skipWhile (· == ' ')
  let handle ← tagHandle "directive" start
  if (← peek) != some ' ' then expected directiveContext start "' '" 0
  skipWhile (· == ' ')
  let expansion ← uri "directive" start
  if !endsWord (← peek) then expected directiveContext start "' '" 0
  return .tagHandle handle expansion

def directive : Scan Lexeme := do
  let start ← mark
  skip 1
  let name ← takeWhile isWordChar
  if name.isEmpty || !endsWord (← peek) then
    expected directiveContext start "alphabetic or numeric character" 0
  let d ←
    if name == "YAML".toList then version start
    else if name == "TAG".toList then tagDirective start
    else do
      skipWhile (!isBreak ·)
      pure (.unknown (String.ofList name))
  restOfLine directiveContext start
  return .directive d

/-! ## Properties of nodes -/

/-- The word after the mark of an anchor or an alias. -/
def anchorName (kind : String) : Scan String := do
  let start ← mark
  let context := "while scanning an " ++ kind
  skip 1
  let name ← takeWhile isWordChar
  let next ← peek
  if name.isEmpty || !(endsToken next || next.any ("?:,]\x7d%@\x60".toList.contains ·)) then
    expected context start "alphabetic or numeric character" 0
  return String.ofList name

/-- Whether an exclamation mark comes before the word ends. -/
def hasHandle (s : List Char) : Bool := (s.takeWhile fun c => !endsWord (some c)).contains '!'

def tag : Scan Lexeme := do
  let start ← mark
  let next ← peekAt 1
  let lexeme ←
    if next == some '<' then do
      skip 2
      let suffix ← uri "tag" start
      if (← peek) != some '>' then expected "while parsing a tag" start "'>'" 0
      skip 1
      pure (.tag none suffix)
    else if endsToken next then do
      skip 1
      pure (.tag none "!")
    else do
      let handle ←
        if hasHandle ((← get).rest.drop 1) then tagHandle "tag" start
        else do skip 1; pure "!"
      pure (.tag (some handle) (← uri "tag" start))
  if !endsWord (← peek) then expected "while scanning a tag" start "' '" 0
  return lexeme

end EntityApi.Yaml.Scan
