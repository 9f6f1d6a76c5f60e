import EntityApi.Proofs.Number.Numerals
import Mathlib.Data.List.TakeWhile

/-! # Whole numerals

A whole number is written with digits of any script, at most 4300 of them, where an
underscore may stand between two; a sign may stand before them, and blanks around all
of it (`Whole`). Just these texts are read, as the number that they denote
(`readInteger_eq_ok_iff`). -/
namespace EntityApi.Numeral

open Text

/-- Digits, with at most one underscore between two of them, and their values. -/
inductive Grouped : List Char → List Nat → Prop
  | last {c : Char} {d : Nat} (h : digitValue? c = some d) : Grouped [c] [d]
  | next {c : Char} {d : Nat} {s : List Char} {ds : List Nat} (h : digitValue? c = some d)
      (hs : Grouped s ds) : Grouped (c :: s) (d :: ds)
  | apart {c : Char} {d : Nat} {s : List Char} {ds : List Nat} (h : digitValue? c = some d)
      (hs : Grouped s ds) : Grouped (c :: '_' :: s) (d :: ds)

/-- Grouped digits that are not too many, alone or after a sign. -/
inductive Valued : List Char → Int → Prop
  | bare {s : List Char} {ds : List Nat} (h : Grouped s ds) (hlimit : ds.length ≤ 4300) :
      Valued s (ofDigits ds)
  | plus {s : List Char} {ds : List Nat} (h : Grouped s ds) (hlimit : ds.length ≤ 4300) :
      Valued ('+' :: s) (ofDigits ds)
  | minus {s : List Char} {ds : List Nat} (h : Grouped s ds) (hlimit : ds.length ≤ 4300) :
      Valued ('-' :: s) (-(ofDigits ds))

/-- A whole number with blanks around it, none of which is an information separator. -/
def Whole (s : List Char) (n : Int) : Prop :=
  ∃ before core after, s = before ++ (core ++ after) ∧ Valued core n ∧
    (∀ c ∈ before, isNumberBlank c = true) ∧ ∀ c ∈ after, isNumberBlank c = true

variable {s : List Char} {ds : List Nat} {n : Int}

/-! ## Digits -/

theorem digitValue?_underscore : digitValue? '_' = none := by decide

theorem Grouped.exists_cons (h : Grouped s ds) :
    ∃ c rest d, s = c :: rest ∧ digitValue? c = some d := by
  cases h with
  | last h => exact ⟨_, _, _, rfl, h⟩
  | next h => exact ⟨_, _, _, rfl, h⟩
  | apart h => exact ⟨_, _, _, rfl, h⟩

theorem groupedDigits?_eq_some : groupedDigits? s = some ds ↔ Grouped s ds := by
  constructor
  · intro h
    fun_induction groupedDigits? s generalizing ds with
    | case1 => cases h
    | case2 c =>
      obtain ⟨d, hd, rfl⟩ := Option.map_eq_some_iff.mp h
      exact .last hd
    | case3 c d rest ih =>
      simp only [bind, Option.bind_eq_some_iff, pure, Option.some.injEq] at h
      obtain ⟨v, hv, vs, hvs, rfl⟩ := h
      exact .apart hv (ih hvs)
    | case4 c d rest _ ih =>
      simp only [bind, Option.bind_eq_some_iff, pure, Option.some.injEq] at h
      obtain ⟨v, hv, vs, hvs, rfl⟩ := h
      exact .next hv (ih hvs)
  · intro h
    induction h with
    | last h => simp [groupedDigits?, h]
    | @next c d s ds h hs ih =>
      -- what comes next is a digit, and so not read as an underscore
      obtain ⟨e, rest, v, rfl, hv⟩ := hs.exists_cons
      have hne : e ≠ '_' := by
        rintro rfl
        cases digitValue?_underscore.symm.trans hv
      rw [groupedDigits?, h, ih]
      · rfl
      · exact fun _ _ heq _ => hne heq
    | @apart c d s ds h hs ih =>
      obtain ⟨e, rest, v, rfl, hv⟩ := hs.exists_cons
      rw [groupedDigits?, h, ih]
      rfl

/-- No digit of any script is a blank. -/
theorem digitZeros_not_blank : ∀ z ∈ digitZeros, ∀ k < 10, isBlank (Char.ofNat (z + k)) = false := by
  decide +kernel

theorem isBlank_of_digitValue? {c : Char} {d : Nat} (h : digitValue? c = some d) :
    isBlank c = false := by
  obtain ⟨z, hz, -⟩ := Option.map_eq_some_iff.mp h
  have hblock : (decide (z ≤ c.toNat) && decide (c.toNat < z + 10)) = true := by
    simpa using List.find?_some hz
  rw [Bool.and_eq_true, decide_eq_true_eq, decide_eq_true_eq] at hblock
  have hblank := digitZeros_not_blank z (List.mem_of_find?_eq_some hz) (c.toNat - z) (by omega)
  rwa [Nat.add_sub_cancel' hblock.1, Char.ofNat_toNat] at hblank

/-! ## Signs and blanks -/

theorem valued_iff : Valued s n ↔ ∃ ds, Grouped (splitSign s).2 ds ∧ ds.length ≤ 4300 ∧
    n = signed (splitSign s).1 (ofDigits ds) := by
  constructor
  · rintro (⟨h, hlimit⟩ | ⟨h, hlimit⟩ | ⟨h, hlimit⟩)
    · obtain ⟨c, rest, d, rfl, hc⟩ := h.exists_cons
      rw [splitSign_of_digitValue? hc]
      exact ⟨_, h, hlimit, rfl⟩
    · exact ⟨_, h, hlimit, rfl⟩
    · exact ⟨_, h, hlimit, rfl⟩
  · rintro ⟨ds, h, hlimit, rfl⟩
    unfold splitSign at h ⊢
    split at h
    · exact .minus h hlimit
    · exact .plus h hlimit
    · exact .bare h hlimit

theorem Grouped.not_blank (h : Grouped s ds) : ∀ c ∈ s, isBlank c = false := by
  induction h with
  | last h => exact List.forall_mem_singleton.mpr (isBlank_of_digitValue? h)
  | next h _ ih => exact List.forall_mem_cons.mpr ⟨isBlank_of_digitValue? h, ih⟩
  | apart h _ ih =>
    exact List.forall_mem_cons.mpr ⟨isBlank_of_digitValue? h, List.forall_mem_cons.mpr ⟨rfl, ih⟩⟩

theorem Valued.not_blank (h : Valued s n) : ∀ c ∈ s, isBlank c = false := by
  cases h with
  | bare h => exact h.not_blank
  | plus h => exact List.forall_mem_cons.mpr ⟨by decide, h.not_blank⟩
  | minus h => exact List.forall_mem_cons.mpr ⟨by decide, h.not_blank⟩

theorem whole_iff : Whole s n ↔ Valued (trimNumber s) n := by
  constructor
  · rintro ⟨before, core, after, rfl, hcore, hbefore, hafter⟩
    have hblank : ∀ c ∈ core, isNumberBlank c = false :=
      fun c hc => by simp [isNumberBlank, hcore.not_blank c hc]
    have htrim : trimNumber (before ++ (core ++ after)) = core :=
      trimBy_of_ends (fun c hc => hblank c (List.mem_of_head? hc))
        (fun c hc => hblank c (List.mem_of_getLast? hc)) hbefore hafter
    rwa [htrim]
  · intro h
    obtain ⟨before, after, hs, hbefore, hafter⟩ := exists_trimBy isNumberBlank s
    exact ⟨before, _, after, hs, h, hbefore, hafter⟩

/-- Just the whole numerals are read. -/
theorem readInteger_eq_ok_iff : readInteger s = .ok n ↔ Whole s n := by
  rw [whole_iff, valued_iff, readInteger]
  rcases splitSign (trimNumber s) with ⟨negative, body⟩
  dsimp only
  constructor
  · intro h
    split at h
    · cases h
    · rename_i ds hds
      split at h
      · cases h
      · rename_i hlimit
        exact ⟨ds, groupedDigits?_eq_some.mp hds, Nat.not_lt.mp hlimit, (Except.ok.inj h).symm⟩
  · rintro ⟨ds, hds, hlimit, rfl⟩
    rw [groupedDigits?_eq_some.mpr hds]
    exact if_neg (Nat.not_lt.mpr hlimit)

end EntityApi.Numeral
