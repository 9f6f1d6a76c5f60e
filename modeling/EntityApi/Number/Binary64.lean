import EntityApi.Number.Exact

/-!
Binary floating-point numbers of 64 bits, kept as sign, whole mantissa and power of two. A mantissa
has at most 53 bits and the exponent is at least -1074; results are rounded to nearest, a tie to
the even mantissa. In this form equal numbers have equal parts and all arithmetic is on whole
numbers.
-/

namespace EntityApi

inductive Binary64 where
  | finite (negative : Bool) (mantissa : Nat) (exponent : Int)
  | infinite (negative : Bool)
  | nan
  deriving Repr, DecidableEq

namespace Binary64

def zero (negative : Bool) : Binary64 := .finite negative 0 (-1074)

/-- The least mantissa that has all 53 bits. -/
def leastNormal : Nat := 0x10000000000000

/-- The whole number nearest to `num / den`, a tie going to the even one. -/
def roundDiv (num den : Nat) : Nat :=
  let q := num / den
  let twice := 2 * (num % den)
  if twice < den then q
  else if den < twice then q + 1
  else if q % 2 == 0 then q else q + 1

/-- The fraction `num / den` in units of `2 ^ exponent`, rounded. -/
def roundAt (num den : Nat) (exponent : Int) : Nat :=
  if 0 ≤ exponent then roundDiv num (den * Nat.pow 2 exponent.toNat)
  else roundDiv (num * Nat.pow 2 (-exponent).toNat) den

/-- Whether `num / den` is less than `2 ^ exponent`. -/
def belowPower (num den : Nat) (exponent : Int) : Bool :=
  if 0 ≤ exponent then decide (num < den * Nat.pow 2 exponent.toNat)
  else decide (num * Nat.pow 2 (-exponent).toNat < den)

/-- The number nearest to `±num / den`. -/
def ofRatio (negative : Bool) (num den : Nat) : Binary64 :=
  if num == 0 then zero negative
  else
    let guess : Int := (num.log2 : Int) - den.log2 - 52
    let fitted := if belowPower num den (guess + 52) then guess - 1 else guess
    let exponent := max fitted (-1074)
    let mantissa := roundAt num den exponent
    let (mantissa, exponent) :=
      if mantissa == 2 * leastNormal then (leastNormal, exponent + 1) else (mantissa, exponent)
    if 971 < exponent then .infinite negative else .finite negative mantissa exponent

/-- The number nearest to `±digits · 10 ^ exponent`. Values far outside the range are decided by
their count of digits, so that no huge power is computed. -/
def ofScientific (negative : Bool) (digits : Nat) (exponent : Int) : Binary64 :=
  let count : Int := digits.log2 / 3 + 1
  if digits == 0 then zero negative
  else if 400 < exponent then .infinite negative
  else if exponent + count < -400 then zero negative
  else if 0 ≤ exponent then ofRatio negative (digits * Nat.pow 10 exponent.toNat) 1
  else ofRatio negative digits (Nat.pow 10 (-exponent).toNat)

def toExact : Binary64 → Exact
  | .finite negative mantissa exponent => .scaled 2 negative mantissa exponent
  | .infinite negative => .infinite negative
  | .nan => .nan

def ofExact : Exact → Binary64
  | .ratio num den => ofRatio (decide (num < 0)) num.natAbs den
  | .infinite negative => .infinite negative
  | .nan => .nan

def isZero : Binary64 → Bool
  | .finite _ 0 _ => true
  | _ => false

def isFinite : Binary64 → Bool
  | .finite _ _ _ => true
  | _ => false

def neg : Binary64 → Binary64
  | .finite negative mantissa exponent => .finite (!negative) mantissa exponent
  | .infinite negative => .infinite (!negative)
  | .nan => .nan

/-- The whole part of a finite number. -/
def truncate? : Binary64 → Option Int
  | .finite negative mantissa exponent =>
    let whole : Nat :=
      if 0 ≤ exponent then mantissa * Nat.pow 2 exponent.toNat
      else mantissa / Nat.pow 2 (-exponent).toNat
    some (if negative then -(whole : Int) else whole)
  | _ => none

end Binary64

end EntityApi
