/-!
Exact numbers: a fraction, one of the two infinities, or no number at all. Every kind of number a
value can hold is mapped here, so that numbers of different kinds are compared without rounding.
-/

namespace EntityApi

inductive Exact where
  | ratio (num : Int) (den : Nat)
  | infinite (negative : Bool)
  | nan
  deriving Repr, DecidableEq

namespace Exact

def ofInt (n : Int) : Exact := .ratio n 1

/-- The value of `±num · base ^ exponent`. -/
def scaled (base : Nat) (negative : Bool) (num : Nat) (exponent : Int) : Exact :=
  let sign : Int := if negative then -1 else 1
  if 0 ≤ exponent then .ratio (sign * (num * base.pow exponent.toNat : Nat)) 1
  else .ratio (sign * num) (base.pow (-exponent).toNat)

/-- Equality of numbers; what is no number equals nothing. -/
def same : Exact → Exact → Bool
  | .ratio a b, .ratio c d => a * d == c * b
  | .infinite a, .infinite b => a == b
  | _, _ => false

def less : Exact → Exact → Bool
  | .ratio a b, .ratio c d => decide (a * d < c * b)
  | .ratio _ _, .infinite negative => !negative
  | .infinite negative, .ratio _ _ => negative
  | .infinite a, .infinite b => a && !b
  | _, _ => false

theorem same_ofInt (a b : Int) : same (ofInt a) (ofInt b) = (a == b) := by simp [same, ofInt]

theorem less_ofInt (a b : Int) : less (ofInt a) (ofInt b) = decide (a < b) := by
  simp [less, ofInt]

end Exact

end EntityApi
