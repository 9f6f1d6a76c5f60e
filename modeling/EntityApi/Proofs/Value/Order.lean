import EntityApi.Value.Compare

/-! # The order of values

What the order of values comes to for whole numbers, and for moments that have
offsets: that of the numbers, and of the instants. -/
namespace EntityApi

theorem Moment.offset_of_ofMillis? {ms : Int} {m : Moment} (h : ofMillis? ms = some m) :
    m.offset.isSome = true := by
  unfold ofMillis? ofReading? at h
  split at h
  · cases h
    rfl
  · cases h

theorem Moment.orUtc_offset_isSome (m : Moment) : m.orUtc.offset.isSome = true := by
  unfold orUtc
  split <;> simp_all

/-- Moments with offsets are in the order of their instants. -/
theorem Value.before_moment {a b : Moment} (ha : a.offset.isSome = true)
    (hb : b.offset.isSome = true) :
    before false (.moment a) (.moment b) = .ok (decide (a.instant ≤ b.instant)) := by
  have horder : (decide (a.instant < b.instant) || a.instant == b.instant) =
      decide (a.instant ≤ b.instant) := by
    rw [Bool.eq_iff_iff]
    simp
    omega
  simp [before, ha, hb, horder]

/-- Whole numbers and truth values are in the order of the numbers. -/
theorem Value.before_of_index? {v w : Value} {a b : Int} (hv : v.index? = some a)
    (hw : w.index? = some b) : before true v w = .ok (decide (a < b)) := by
  cases v <;> simp only [index?, Option.some.injEq, reduceCtorEq] at hv <;> subst hv <;>
    cases w <;> simp only [index?, Option.some.injEq, reduceCtorEq] at hw <;> subst hw <;>
      simp [before, number?, beforeNumber, isDecimal, Exact.less_ofInt]

/-- Null is not compared with anything. -/
theorem Value.not_null_of_before {strict answer : Bool} {a b : Value}
    (h : before strict a b = .ok answer) : a.isNull = false ∧ b.isNull = false := by
  cases a <;> cases b <;> simp_all [before, isNull, number?, unordered, mishap]

end EntityApi
