import EntityApi.Failure
import EntityApi.Value.Basic

/-!
The order of values. Numbers of all kinds are ordered together, texts by code point, lists and pairs
by their first difference; moments only with moments that agree on having an offset. Any other two
values have no order, and asking for it is a failure.
-/

namespace EntityApi.Value

def unordered {α : Type} (a b : Value) : Result α :=
  mishap .badType ("no order between " ++ a.kind ++ " and " ++ b.kind)

def beforeNumber (strict : Bool) (a b : Exact) : Bool := a.less b || (!strict && a.same b)

def isDecimal : Value → Bool
  | decimal _ => true
  | _ => false

/-- Lexicographic order of bytes. -/
def beforeBytes (strict : Bool) : List UInt8 → List UInt8 → Bool
  | [], bs => !strict || !bs.isEmpty
  | _ :: _, [] => false
  | a :: as, b :: bs => if a == b then beforeBytes strict as bs else decide (a < b)

mutual

/-- Whether `a` comes before `b`, or, unless `strict`, is equal to it. -/
def before (strict : Bool) : Value → Value → Result Bool
  | text a, text b => .ok (decide (a < b) || (!strict && a == b))
  | bytes a, bytes b => .ok (beforeBytes strict a b)
  | day a, day b => .ok (decide (a.number < b.number) || (!strict && a.number == b.number))
  | moment a, moment b =>
    if a.offset.isSome == b.offset.isSome then
      .ok (decide (a.instant < b.instant) || (!strict && a.instant == b.instant))
    else unordered (moment a) (moment b)
  | list a, list b => beforeList strict a b
  | pair a b, pair c d => if same a c then before strict b d else before strict a c
  | a, b =>
    match a.number?, b.number? with
    | some x, some y =>
      if (isDecimal a || isDecimal b) && (x == .nan || y == .nan) then
        mishap .invalidOperation "comparison with a decimal that is no number"
      else .ok (beforeNumber strict x y)
    | _, _ => unordered a b

def beforeList (strict : Bool) : List Value → List Value → Result Bool
  | [], bs => .ok (!strict || !bs.isEmpty)
  | _ :: _, [] => .ok false
  | a :: as, b :: bs => if same a b then beforeList strict as bs else before strict a b

end

end EntityApi.Value
