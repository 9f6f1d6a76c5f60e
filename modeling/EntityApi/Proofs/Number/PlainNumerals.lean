import EntityApi.Filter.Compile
import EntityApi.Proofs.Number.Numerals
import EntityApi.Proofs.Text.Blanks

/-! # Plain numerals

A filter writes a whole number as an optional minus and 1 to 4300 ASCII digits, with
blanks around them (`Plain`). Just these texts are read, as the number that the digits
denote (`readInteger_eq_ok`). The decimal form of a number is one of them, unless it has
too many digits (`plain_write`). -/
namespace EntityApi

namespace Numeral

open Text

/-- Between 1 and 4300 ASCII digits, which denote the number. -/
structure Unsigned (s : List Char) (n : Nat) : Prop where
  some : s ≠ []
  limit : s.length ≤ 4300
  digits : ∀ c ∈ s, c.isDigit = true
  value : n = Nat.ofDigitChars 10 s 0

/-- The digits of a number, or those of its opposite after a minus. -/
inductive Signed : List Char → Int → Prop
  | plus {s : List Char} {n : Nat} : Unsigned s n → Signed s n
  | minus {s : List Char} {n : Nat} : Unsigned s n → Signed ('-' :: s) (-n)

/-- A numeral with blanks around it. -/
def Plain (s : List Char) (n : Int) : Prop := ∃ core, Signed core n ∧ Padded core s

/-! ## Size -/

theorem ofDigitChars_lt {s : List Char} (h : ∀ c ∈ s, c.isDigit = true) (high : Nat) :
    Nat.ofDigitChars 10 s high < (high + 1) * Nat.pow 10 s.length := by
  induction s generalizing high with
  | nil => simp
  | cons c s ih =>
    obtain ⟨hc, hs⟩ := List.forall_mem_cons.mp h
    have hdigit : c.toNat - '0'.toNat ≤ 9 := by
      rw [Char.isDigit_iff_toNat] at hc
      have hnine : '9'.toNat - '0'.toNat = 9 := rfl
      omega
    have hpow : Nat.pow 10 (s.length + 1) = 10 * Nat.pow 10 s.length := Nat.mul_comm _ 10
    rw [Nat.ofDigitChars_cons, List.length_cons, hpow, ← Nat.mul_assoc]
    exact Nat.lt_of_lt_of_le (ih hs _) (Nat.mul_le_mul_right _ (by omega))

theorem Unsigned.lt {s : List Char} {n k : Nat} (h : Unsigned s n) (hk : s.length ≤ k) :
    n < Nat.pow 10 k := by
  have hlt := ofDigitChars_lt h.digits 0
  rw [← h.value, Nat.zero_add, Nat.one_mul] at hlt
  exact Nat.lt_of_lt_of_le hlt (Nat.pow_le_pow_right (by decide) hk)

/-- A number that is read has a decimal form. -/
theorem Plain.natAbs_lt {s : List Char} {n : Int} (h : Plain s n) :
    n.natAbs < Nat.pow 10 digitLimit := by
  obtain ⟨core, hsigned, _⟩ := h
  cases hsigned with
  | plus h => exact h.lt h.limit
  | minus h =>
    rw [Int.natAbs_neg]
    exact h.lt h.limit

/-! ## Reading -/

theorem isAsciiDigit_eq (c : Char) : isAsciiDigit c = c.isDigit := rfl

theorem asciiDigit?_of_isDigit {c : Char} (h : c.isDigit = true) :
    asciiDigit? c = some (c.toNat - 48) := by
  rw [← isAsciiDigit_eq, isAsciiDigit, Bool.and_eq_true, decide_eq_true_iff,
    decide_eq_true_iff] at h
  exact if_pos h

theorem ofDigits_asciiDigits {s : List Char} (h : ∀ c ∈ s, c.isDigit = true) :
    ofDigits (s.filterMap asciiDigit?) = Nat.ofDigitChars 10 s 0 := by
  have hvalues : s.filterMap asciiDigit? = s.map (·.toNat - 48) := by
    induction s with
    | nil => rfl
    | cons c s ih =>
      obtain ⟨hc, hs⟩ := List.forall_mem_cons.mp h
      rw [List.filterMap_cons, asciiDigit?_of_isDigit hc, List.map_cons, ih hs]
  rw [hvalues, ofDigits_eq_ofDigitChars]

/-- What is read after the sign. -/
theorem readDigits_eq_ok {negative : Bool} {body : List Char} {n : Int} :
    (if body.isEmpty || !body.all isAsciiDigit then (.error .malformed : Except IntegerFault Int)
      else if digitLimit < body.length then .error (.tooLong body.length)
      else .ok (signed negative (ofDigits (body.filterMap asciiDigit?)))) = .ok n ↔
    ∃ m, Unsigned body m ∧ n = signed negative m := by
  constructor
  · intro h
    split at h
    · cases h
    · rename_i hbody
      split at h
      · cases h
      · rename_i hlimit
        simp only [Bool.or_eq_true, Bool.not_eq_true', not_or, Bool.not_eq_false,
          List.isEmpty_iff, List.all_eq_true, isAsciiDigit_eq] at hbody
        cases h
        exact ⟨_, ⟨hbody.1, Nat.not_lt.mp hlimit, hbody.2, rfl⟩, by rw [ofDigits_asciiDigits hbody.2]⟩
  · rintro ⟨m, h, rfl⟩
    have hbody : (body.isEmpty || !body.all isAsciiDigit) = false := by
      simp only [Bool.or_eq_false_iff, List.isEmpty_eq_false_iff, Bool.not_eq_false',
        List.all_eq_true, isAsciiDigit_eq]
      exact ⟨h.some, h.digits⟩
    have hlimit : ¬digitLimit < body.length := Nat.not_lt.mpr h.limit
    rw [if_neg (Bool.eq_false_iff.mp hbody), if_neg hlimit, h.value, ofDigits_asciiDigits h.digits]

theorem readPlainInteger_eq_ok {s : List Char} {n : Int} :
    readPlainInteger s = .ok n ↔ Signed s n := by
  unfold readPlainInteger
  constructor
  · intro h
    split at h
    rename_i negative body hsplit
    obtain ⟨m, hm, rfl⟩ := readDigits_eq_ok.mp h
    split at hsplit
    · cases hsplit
      exact .minus hm
    · cases hsplit
      exact .plus hm
  · rintro (h | h)
    · split
      rename_i negative body hsplit
      split at hsplit
      · exact absurd (h.digits '-' List.mem_cons_self) (by decide)
      · cases hsplit
        exact readDigits_eq_ok.mpr ⟨_, h, rfl⟩
    · exact readDigits_eq_ok.mpr ⟨_, h, rfl⟩

theorem Signed.not_blank {s : List Char} {n : Int} (h : Signed s n) : ∀ c ∈ s, isBlank c = false := by
  cases h with
  | plus h => exact fun c hc => isBlank_of_isDigit (h.digits c hc)
  | minus h =>
    exact List.forall_mem_cons.mpr ⟨by decide, fun c hc => isBlank_of_isDigit (h.digits c hc)⟩

theorem Signed.no_comma {s : List Char} {n : Int} (h : Signed s n) : ',' ∉ s := by
  have hdigits : ∀ {t : List Char} {m : Nat}, Unsigned t m → ',' ∉ t := fun ht hc =>
    absurd (ht.digits ',' hc) (by decide)
  cases h with
  | plus h => exact hdigits h
  | minus h => exact List.not_mem_cons_of_ne_of_not_mem (by decide) (hdigits h)

/-! ## Writing -/

theorem signed_write {n : Int} (h : (Nat.toDigits 10 n.natAbs).length ≤ 4300) :
    Signed (write n) n := by
  have hdigits : Unsigned (Nat.toDigits 10 n.natAbs) n.natAbs := {
    some := Nat.toDigits_ne_nil
    limit := h
    digits := fun _ => isDigit_of_mem_toDigits
    value := (Nat.ofDigitChars_toDigits (by decide) (by decide)).symm }
  unfold write
  split
  · have hn : -(n.natAbs : Int) = n := by omega
    have hsigned := Signed.minus hdigits
    rwa [hn] at hsigned
  · have hn : (n.natAbs : Int) = n := by omega
    have hsigned := Signed.plus hdigits
    rwa [hn] at hsigned

/-- The decimal form of a number is read as that number. -/
theorem plain_write {n : Int} (h : (Nat.toDigits 10 n.natAbs).length ≤ 4300) : Plain (write n) n :=
  ⟨write n, signed_write h, .refl _⟩

end Numeral

namespace Filter

open Numeral (Plain)

theorem readInteger_eq_ok {s : String} {n : Int} : readInteger s = .ok n ↔ Plain s.toList n := by
  have hread : readInteger s = .ok n ↔ Numeral.readPlainInteger (Text.trimChars s.toList) = .ok n := by
    unfold readInteger
    split
    · rename_i m hm
      rw [hm]
      simp only [Except.ok.injEq]
    · rename_i hm
      rw [hm]
      simp [refuse]
    · rename_i hm
      rw [hm]
      simp [mishap]
  rw [hread, Numeral.readPlainInteger_eq_ok]
  constructor
  · exact fun h => ⟨_, h, Text.padded_trimChars _⟩
  · rintro ⟨core, h, hpadded⟩
    rw [Text.trimChars_of_padded h.not_blank hpadded]
    exact h

end Filter

end EntityApi
