import EntityApi.Number.Shortest

/-!
Decimal digits of a fraction, rounded to a number of places or to a count of digits, a tie going to
the even digit. The point is given by the count of digits before it, which may be negative.
-/

namespace EntityApi

/-- Digits, the first `point` of them before the point. -/
structure Digits where
  digits : List Char
  point : Int
  deriving Repr, DecidableEq

namespace Digits

/-- The digits of `num / den` with `places` places after the point. -/
def toPlaces (num den places : Nat) : Digits :=
  let all := Nat.toDigits 10 (Binary64.roundDiv (num * Nat.pow 10 places) den)
  ⟨all, (all.length : Int) - places⟩

/-- The first `count` digits of `num / den`. Rounding up may move the point by one. -/
def ofCount (num den count : Nat) : Digits :=
  if num == 0 then ⟨List.replicate count '0', 1⟩
  else
    let lead := Binary64.decimalExponent num den
    let (unitNum, unitDen) := Binary64.powerRatio 10 (lead + 1 - count)
    let all := Nat.toDigits 10 (Binary64.roundDiv (num * unitDen) (den * unitNum))
    ⟨all.take count, lead + 1 + all.length - count⟩

def isZero (d : Digits) : Bool := d.digits.all (· == '0')

/-- Without the zeros at the end. -/
def trimmed (d : Digits) : Digits :=
  { d with digits := (d.digits.reverse.dropWhile (· == '0')).reverse }

/-- The digits before and after the point, with zeros where there are none; at least one before. -/
def split (d : Digits) : List Char × List Char :=
  if d.point ≤ 0 then (['0'], List.replicate (-d.point).toNat '0' ++ d.digits)
  else
    let n := d.point.toNat
    let all := d.digits ++ List.replicate (n - d.digits.length) '0'
    (all.take n, all.drop n)

end Digits

end EntityApi
