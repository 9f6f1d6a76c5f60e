import EntityApi.Number.Binary64

/-!
The decimal text of a binary floating-point number: the fewest digits that read back as the same
number, and of those the nearest to it. For each count of digits the two neighbours of the number
on that decimal grid are tried; if any grid point reads back, one of the two neighbours does.
-/

namespace EntityApi

namespace Binary64

def powerRatio (base : Nat) (exponent : Int) : Nat × Nat :=
  if 0 ≤ exponent then (base.pow exponent.toNat, 1) else (1, base.pow (-exponent).toNat)

/-- The numbers that round to `mantissa · 2 ^ exponent`, as an interval in units of
`2 ^ (exponent - 2)`; the lower half is narrower at a power of two. -/
def readsBack (mantissa : Nat) (exponent : Int) : Nat × Nat :=
  (if mantissa == leastNormal && exponent != -1074 then 4 * mantissa - 1 else 4 * mantissa - 2,
    4 * mantissa + 2)

/-- The power of ten of the leading digit of `num / den`. -/
def decimalExponent (num den : Nat) : Int :=
  if den ≤ num then ((Nat.toDigits 10 (num / den)).length : Int) - 1
  else
    let places := (Nat.toDigits 10 (den / num)).length
    if den ≤ num * Nat.pow 10 (places - 1) then -((places : Int) - 1) else -(places : Int)

/-- The neighbour of the number on the grid of `count` digits that reads back, if any; of two the
nearer one, a tie going to the even digit. The result is a whole number of grid units with the
power of ten that is the unit. -/
def onGrid? (mantissa : Nat) (exponent : Int) (lead : Int) (count : Nat) : Option (Nat × Int) :=
  let place := lead - (count - 1 : Nat)
  let (unitNum, unitDen) := powerRatio 2 (exponent - 2)
  let (tenNum, tenDen) := powerRatio 10 place
  -- both scales over the common denominator `unitDen * tenDen`
  let unit := unitNum * tenDen
  let step := tenNum * unitDen
  let exact := 4 * mantissa * unit
  let (low, high) := readsBack mantissa exponent
  let inside (q : Nat) : Bool :=
    if mantissa % 2 == 0 then decide (low * unit ≤ q * step) && decide (q * step ≤ high * unit)
    else decide (low * unit < q * step) && decide (q * step < high * unit)
  let below := exact / step
  let gapBelow := exact - below * step
  let gapAbove := (below + 1) * step - exact
  match inside below, inside (below + 1) with
  | false, false => none
  | true, false => some (below, place)
  | false, true => some (below + 1, place)
  | true, true =>
    if gapBelow < gapAbove then some (below, place)
    else if gapAbove < gapBelow then some (below + 1, place)
    else if below % 2 == 0 then some (below, place) else some (below + 1, place)

/-- The digits of a positive number and the power of ten of the last one. Seventeen digits always
read back. -/
def shortest (mantissa : Nat) (exponent : Int) : Nat × Int :=
  let (num, den) := powerRatio 2 exponent
  let lead := decimalExponent (mantissa * num) den
  ((List.range 17).findSome? fun k => onGrid? mantissa exponent lead (k + 1)).getD (0, 0)

/-- An exponent: its sign and at least two digits. -/
def exponentText (power : Int) : List Char :=
  let count := Nat.toDigits 10 power.natAbs
  (if power < 0 then '-' else '+') :: (if count.length < 2 then '0' :: count else count)

/-- Digits with the power of ten of the last one, written out. Numbers whose point falls 4 or more
places before the first digit, or more than 16 after it, have an exponent of at least two digits;
all others have at least one digit on each side of the point. -/
def decimalText (digits : Nat) (place : Int) : String :=
  let all := Nat.toDigits 10 digits
  let shown := (all.reverse.dropWhile (· == '0')).reverse
  let point : Int := all.length + place
  if -4 < point ∧ point ≤ 16 then
    let pad := List.replicate (-point).toNat '0'
    let whole := (shown ++ List.replicate (point.toNat - shown.length) '0').take point.toNat
    let fraction := pad ++ shown.drop point.toNat
    String.ofList ((if whole.isEmpty then ['0'] else whole) ++ '.' ::
      (if fraction.isEmpty then ['0'] else fraction))
  else
    let exponent := exponentText (point - 1)
    match shown with
    | [] => "0.0"
    | [d] => String.ofList (d :: 'e' :: exponent)
    | d :: more => String.ofList (d :: '.' :: more ++ 'e' :: exponent)

def text : Binary64 → String
  | .nan => "nan"
  | .infinite negative => if negative then "-inf" else "inf"
  | .finite negative mantissa exponent =>
    let sign := if negative then "-" else ""
    if mantissa == 0 then sign ++ "0.0"
    else
      let (digits, place) := shortest mantissa exponent
      sign ++ decimalText digits place

end Binary64

end EntityApi
