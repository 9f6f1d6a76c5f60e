import EntityApi.Number.Numeral
import EntityApi.Number.Shortest

/-!
Decimal numbers of any length, which keep their trailing zeros: `1.50` and `1.5` are equal but
written differently.
-/

namespace EntityApi

inductive Decimal where
  | finite (negative : Bool) (coefficient : Nat) (exponent : Int)
  | infinite (negative : Bool)
  | nan (negative signaling : Bool) (payload : String)
  deriving Repr, DecidableEq

namespace Decimal

/-- The written form: positional as long as the exponent is not positive and at most six places
lead up to the first digit, scientific otherwise. -/
def text : Decimal → String
  | .infinite negative => (if negative then "-" else "") ++ "Infinity"
  | .nan negative signaling payload =>
    (if negative then "-" else "") ++ (if signaling then "sNaN" else "NaN") ++ payload
  | .finite negative coefficient exponent =>
    let digits := Nat.toDigits 10 coefficient
    let lead := exponent + digits.length - 1
    let body :=
      if exponent ≤ 0 ∧ -6 ≤ lead then
        if exponent == 0 then digits
        else if 0 ≤ lead then
          digits.take (lead + 1).toNat ++ '.' :: digits.drop (lead + 1).toNat
        else '0' :: '.' :: (List.replicate (-lead - 1).toNat '0' ++ digits)
      else
        let mantissa := match digits with
          | [] => ['0']
          | [d] => [d]
          | d :: more => d :: '.' :: more
        mantissa ++ 'E' :: (if lead < 0 then '-' else '+') :: Nat.toDigits 10 lead.natAbs
    String.ofList ((if negative then ['-'] else []) ++ body)

def isZero : Decimal → Bool
  | .finite _ 0 _ => true
  | _ => false

def isNan : Decimal → Bool
  | .nan _ _ _ => true
  | _ => false

def isSignaling : Decimal → Bool
  | .nan _ signaling _ => signaling
  | _ => false

def toExact : Decimal → Exact
  | .finite negative coefficient exponent => .scaled 10 negative coefficient exponent
  | .infinite negative => .infinite negative
  | .nan _ _ _ => .nan

/-- The nearest binary number. -/
def toBinary64 : Decimal → Binary64
  | .finite negative coefficient exponent => .ofScientific negative coefficient exponent
  | .infinite negative => .infinite negative
  | .nan _ _ _ => .nan

/-- The whole part of a finite number. -/
def truncate? : Decimal → Option Int
  | .finite negative coefficient exponent =>
    let whole :=
      if 0 ≤ exponent then coefficient * Nat.pow 10 exponent.toNat
      else coefficient / Nat.pow 10 (-exponent).toNat
    some (Numeral.signed negative whole)
  | _ => none

/-- Reads a written form. -/
def ofText? (s : String) : Option Decimal :=
  let (negative, body) := Numeral.splitSign s.toList
  let word := String.ofList (body.map Numeral.lowerAscii)
  if word == "inf" || word == "infinity" then some (.infinite negative)
  else if word.startsWith "snan" then some (.nan negative true (String.ofList (body.drop 4)))
  else if word.startsWith "nan" then some (.nan negative false (String.ofList (body.drop 3)))
  else
    let whole := body.takeWhile Text.isAsciiDigit
    let rest := body.dropWhile Text.isAsciiDigit
    let (fraction, rest) := match rest with
      | '.' :: more => (more.takeWhile Text.isAsciiDigit, more.dropWhile Text.isAsciiDigit)
      | _ => ([], rest)
    let digits := (whole ++ fraction).filterMap Text.asciiDigit?
    if digits.isEmpty then none
    else (Numeral.exponent? rest).map fun e =>
      .finite negative (Numeral.ofDigits digits) (e - fraction.length)

end Decimal

end EntityApi
