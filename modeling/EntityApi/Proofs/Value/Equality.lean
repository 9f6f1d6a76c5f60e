import EntityApi.Proofs.Tables
import EntityApi.Value.Basic

/-! # Equality of values

Equality of values is no equivalence at large: what is no number differs from
itself. It is one among texts, which equal nothing but themselves
(`identified_text`), and it can be relied on next to a whole number, where a
truth value or a decimal may stand for that number
(`beq_trans_of_index?`). -/
namespace EntityApi

namespace Exact

theorem scaled_ne_zero_den {base : Nat} (hb : 0 < base) {negative : Bool} {num : Nat}
    {exponent : Int} {a : Int} {d : Nat} (h : scaled base negative num exponent = .ratio a d) :
    d ≠ 0 := by
  unfold scaled at h
  simp only [] at h
  split at h
  · cases h; decide
  · cases h
    exact Nat.ne_of_gt (Nat.pow_pos hb)

/-- What equals a whole number is compared with anything else as that number is. -/
theorem same_of_same_ofInt {n : Int} {x y : Exact} (hx : ∀ a d, x = .ratio a d → d ≠ 0)
    (h : same (ofInt n) x = true) : same y x = same (ofInt n) y := by
  cases x with
  | infinite _ => simp [same, ofInt] at h
  | nan => simp [same, ofInt] at h
  | ratio a d =>
    have hd : (d : Int) ≠ 0 := by exact_mod_cast hx a d rfl
    have ha : a = n * d := by simpa [same, ofInt] using Eq.symm (by simpa [same, ofInt] using h)
    subst ha
    cases y with
    | infinite _ => rfl
    | nan => rfl
    | ratio b e =>
      have hiff : b * (d : Int) = n * d * e ↔ n * (e : Int) = b := by
        rw [Int.mul_right_comm n d e]
        exact ⟨fun he => (Int.eq_of_mul_eq_mul_right hd he).symm, fun he => by rw [he]⟩
      rw [Bool.eq_iff_iff]
      simpa [same, ofInt] using hiff

end Exact

namespace Value

theorem identified_text (s : String) : Entries.Identified (text s) where
  left _ := beq_text_iff
  right _ := text_beq_iff

theorem number?_ne_zero_den {v : Value} {a : Int} {d : Nat} (h : v.number? = some (.ratio a d)) :
    d ≠ 0 := by
  cases v <;> simp only [number?, Option.some.injEq, reduceCtorEq] at h
  case bool b => cases h; decide
  case int n => cases h; decide
  case real x =>
    cases x <;> simp only [Binary64.toExact, reduceCtorEq] at h
    exact Exact.scaled_ne_zero_den (by decide) h
  case decimal x =>
    cases x <;> simp only [Decimal.toExact, reduceCtorEq] at h
    exact Exact.scaled_ne_zero_den (by decide) h

/-- A whole number or truth value is compared as a number. -/
theorem beq_of_index? {v w : Value} {n : Int} (h : v.index? = some n) :
    (v == w) = sameNumber (.ofInt n) w := by
  show same v w = _
  cases v <;> simp only [index?, Option.some.injEq, reduceCtorEq] at h <;> subst h <;> simp [same]

theorem beq_of_index?_index? {v w : Value} {n m : Int} (hv : v.index? = some n)
    (hw : w.index? = some m) : (v == w) = (n == m) := by
  rw [beq_of_index? hv]
  cases w <;> simp only [index?, Option.some.injEq, reduceCtorEq] at hw <;> subst hw <;>
    exact Exact.same_ofInt _ _

theorem index?_eq_none_of_isNull {v : Value} (h : v.isNull = true) : v.index? = none := by
  cases v <;> simp_all [index?, isNull]

/-- Two values that are compared with a whole number agree with each other as they agree with it. -/
theorem beq_trans_of_index? {v w k : Value} (hv : v.index?.isSome = true) (h : (v == w) = true) :
    (k == w) = (v == k) := by
  obtain ⟨n, hn⟩ := Option.isSome_iff_exists.mp hv
  rw [beq_of_index? hn] at h ⊢
  unfold sameNumber at h ⊢
  cases hw : w.number? with
  | none => simp [hw] at h
  | some x =>
    simp only [hw] at h
    have hx : ∀ a d, x = .ratio a d → d ≠ 0 := fun a d he =>
      number?_ne_zero_den (hw.trans (by rw [he]))
    cases hk : k.number? with
    | none =>
      -- only values of the numeric kinds have a number, and the others equal no number
      show same k w = false
      cases w <;> simp [number?] at hw <;> cases k <;> simp_all [number?, same]
    | some y =>
      have hkw : (k == w) = y.same x := by
        show same k w = y.same x
        cases k <;> simp only [number?, Option.some.injEq, reduceCtorEq] at hk <;> subst hk <;>
          simp [same, sameNumber, hw]
      rw [hkw]
      exact Exact.same_of_same_ofInt hx h

end Value

end EntityApi
