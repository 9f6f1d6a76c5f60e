import EntityApi.Text.Printable

/-!
Quoted literals, as error texts show them. A text stands in single quotes, or in double quotes when
it holds a single quote and no double one; the backslash, the quote in use and every non-printable
character are escaped. Raw bytes are shown likewise, with every byte outside printable ASCII as a
two-digit code.
-/

namespace EntityApi.Text

def hexDigit (n : Nat) : Char :=
  if n < 10 then Char.ofNat (48 + n) else Char.ofNat (87 + n)

/-- The last `width` hexadecimal digits of `n`, in lower case. -/
def hexDigits : Nat → Nat → List Char
  | 0, _ => []
  | width + 1, n => hexDigits width (n / 16) ++ [hexDigit (n % 16)]

/-- The shortest of the three numbered escapes that holds the code point. -/
def numberedEscape (n : Nat) : List Char :=
  if n < 0x100 then '\\' :: 'x' :: hexDigits 2 n
  else if n < 0x10000 then '\\' :: 'u' :: hexDigits 4 n
  else '\\' :: 'U' :: hexDigits 8 n

def quoteFor (s : List Char) : Char :=
  if s.contains '\'' && !s.contains '"' then '"' else '\''

/-- The written form of one character between `quote` marks; `plain` says which characters need no
escape. -/
def quotedChar (plain : Char → Bool) (quote c : Char) : List Char :=
  if c == quote || c == '\\' then ['\\', c]
  else if c == '\n' then ['\\', 'n']
  else if c == '\r' then ['\\', 'r']
  else if c == '\t' then ['\\', 't']
  else if plain c then [c]
  else numberedEscape c.toNat

def quotedWith (plain : Char → Bool) (s : List Char) : List Char :=
  quoteFor s :: (s.flatMap (quotedChar plain (quoteFor s)) ++ [quoteFor s])

def quoted (s : String) : String := String.ofList (quotedWith isPrintable s.toList)

def quotedBytes (bytes : List UInt8) : String :=
  let codes := bytes.map fun b => Char.ofNat b.toNat
  String.ofList ('b' :: quotedWith (fun c => isPrintable c && decide (c.toNat < 128)) codes)

end EntityApi.Text
