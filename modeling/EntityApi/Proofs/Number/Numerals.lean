import EntityApi.Number.Numeral
import EntityApi.Proofs.Text.Blanks

/-! # Written whole numbers are read back

The decimal form of a whole number holds ASCII digits only, after a minus if there
is one. Nothing is trimmed off it, its sign is told by its first character, and its
digits denote the number again (`readInteger_write`). -/
namespace EntityApi.Numeral

open Text

theorem toNat_of_isDigit {c : Char} (h : c.isDigit = true) : 48 ≤ c.toNat ∧ c.toNat ≤ 57 :=
  Char.isDigit_iff_toNat.mp h

theorem digitValue?_of_isDigit {c : Char} (h : c.isDigit = true) :
    digitValue? c = some (c.toNat - 48) := by
  obtain ⟨hlow, hhigh⟩ := toNat_of_isDigit h
  have hblock : (decide (48 ≤ c.toNat) && decide (c.toNat < 48 + 10)) = true := by
    simp only [Bool.and_eq_true, decide_eq_true_eq]
    omega
  have hfind : (digitZeros.find? fun z => decide (z ≤ c.toNat) && decide (c.toNat < z + 10)) = some 48 :=
    List.find?_cons_of_pos hblock
  rw [digitValue?, hfind]
  rfl

theorem isBlank_of_isDigit {c : Char} (h : c.isDigit = true) : isBlank c = false := by
  obtain ⟨hlow, hhigh⟩ := toNat_of_isDigit h
  simp only [isBlank, Bool.or_eq_false_iff, decide_eq_false_iff_not, beq_eq_false_iff_ne]
  omega

/-- The digits of a run of ASCII digits, none of which is an underscore. -/
theorem groupedDigits?_of_digits {s : List Char} (hne : s ≠ [])
    (h : ∀ c ∈ s, c.isDigit = true) : groupedDigits? s = some (s.map (·.toNat - 48)) := by
  fun_induction groupedDigits? s with
  | case1 => exact absurd rfl hne
  | case2 c => simp [digitValue?_of_isDigit (h c (by simp))]
  | case3 c d rest =>
    have hunderscore := h '_' (by simp)
    cases hunderscore
  | case4 c d rest _ ih =>
    obtain ⟨hc, hrest⟩ := List.forall_mem_cons.mp h
    rw [digitValue?_of_isDigit hc, ih (List.cons_ne_nil d rest) hrest]
    rfl

/-- A sign that is neither digit nor underscore has no place among digits. -/
theorem groupedDigits?_of_foreign {s : List Char} {c : Char} (h : c ∈ s)
    (hc : digitValue? c = none) (hu : c ≠ '_') : groupedDigits? s = none := by
  fun_induction groupedDigits? s with
  | case1 => cases h
  | case2 d =>
    rw [← List.mem_singleton.mp h, hc]
    rfl
  | case3 d e rest ih =>
    rcases List.mem_cons.mp h with rfl | h
    · simp [hc]
    · rcases List.mem_cons.mp h with rfl | h
      · exact absurd rfl hu
      · simp [ih h]
  | case4 d e rest _ ih =>
    rcases List.mem_cons.mp h with rfl | h
    · simp [hc]
    · simp [ih h]

theorem ofDigits_eq_ofDigitChars (s : List Char) :
    ofDigits (s.map (·.toNat - 48)) = Nat.ofDigitChars 10 s 0 := by
  rw [ofDigits, List.foldl_map]
  rfl

section

variable {n : Int}

/-- What is written begins and ends with no blank. -/
theorem trimNumber_eq_self {s : List Char} (h : ∀ c ∈ s, isBlank c = false) : trimNumber s = s := by
  have hblank : ∀ c ∈ s, isNumberBlank c = false := fun c hc => by simp [isNumberBlank, h c hc]
  have htrim := @trimBy_of_ends isNumberBlank s [] [] (fun c hc => hblank c (List.mem_of_head? hc))
    (fun c hc => hblank c (List.mem_of_getLast? hc)) nofun nofun
  rwa [List.append_nil, List.nil_append] at htrim

theorem isDigit_of_mem_toDigits {m : Nat} {c : Char} (h : c ∈ Nat.toDigits 10 m) :
    c.isDigit = true :=
  Nat.isDigit_of_mem_toDigits (by decide) (by decide) h

theorem not_blank_of_mem_write {c : Char} (h : c ∈ write n) : isBlank c = false := by
  rcases List.mem_append.mp h with h | h
  · split at h
    · rw [List.mem_singleton.mp h]
      decide
    · cases h
  · exact isBlank_of_isDigit (isDigit_of_mem_toDigits h)

/-- A digit is neither of the two signs. -/
theorem splitSign_of_digitValue? {c : Char} {d : Nat} (hc : digitValue? c = some d)
    (rest : List Char) : splitSign (c :: rest) = (false, c :: rest) := by
  have hsigns : digitValue? '-' = none ∧ digitValue? '+' = none := by decide
  unfold splitSign
  split
  · rename_i heq
    rw [(List.cons.inj heq).1, hsigns.1] at hc
    cases hc
  · rename_i heq
    rw [(List.cons.inj heq).1, hsigns.2] at hc
    cases hc
  · rfl

theorem splitSign_of_isDigit {c : Char} (hc : c.isDigit = true) (rest : List Char) :
    splitSign (c :: rest) = (false, c :: rest) :=
  splitSign_of_digitValue? (digitValue?_of_isDigit hc) rest

theorem splitSign_write (n : Int) :
    splitSign (write n) = (decide (n < 0), Nat.toDigits 10 n.natAbs) := by
  unfold write
  split
  · rename_i hneg
    simp [splitSign, hneg]
  · rename_i hpos
    obtain ⟨c, rest, hdigits⟩ := List.exists_cons_of_ne_nil (Nat.toDigits_ne_nil (n := n.natAbs) (b := 10))
    have hc : c.isDigit = true := isDigit_of_mem_toDigits (hdigits ▸ List.mem_cons_self)
    rw [List.nil_append, hdigits, decide_eq_false hpos, splitSign_of_isDigit hc]

theorem signed_natAbs (n : Int) : signed (decide (n < 0)) n.natAbs = n := by
  unfold signed
  split
  · rename_i h
    have hneg := of_decide_eq_true h
    omega
  · rename_i h
    have hpos : ¬n < 0 := fun hneg => h (decide_eq_true hneg)
    omega

theorem length_toDigits_le {m k : Nat} (hk : 0 < k) (h : m < Nat.pow 10 k) :
    (Nat.toDigits 10 m).length ≤ k :=
  (Nat.length_toDigits_le_iff (by decide) hk).mpr h

theorem lt_of_length_toDigits_le {m k : Nat} (hk : 0 < k) (h : (Nat.toDigits 10 m).length ≤ k) :
    m < Nat.pow 10 k :=
  (Nat.length_toDigits_le_iff (by decide) hk).mp h

/-- A whole number that does not have too many digits is read back from its decimal form. -/
theorem readInteger_write (h : n.natAbs < Nat.pow 10 digitLimit) : readInteger (write n) = .ok n := by
  have hdigits : groupedDigits? (Nat.toDigits 10 n.natAbs) =
      some ((Nat.toDigits 10 n.natAbs).map (·.toNat - 48)) :=
    groupedDigits?_of_digits Nat.toDigits_ne_nil fun _ => isDigit_of_mem_toDigits
  have hlength : ¬digitLimit < ((Nat.toDigits 10 n.natAbs).map (·.toNat - 48)).length := by
    rw [List.length_map, Nat.not_lt]
    exact length_toDigits_le (by decide) h
  have hvalue : ofDigits ((Nat.toDigits 10 n.natAbs).map (·.toNat - 48)) = n.natAbs := by
    rw [ofDigits_eq_ofDigitChars, Nat.ofDigitChars_toDigits (by decide) (by decide)]
  rw [readInteger, trimNumber_eq_self fun _ => not_blank_of_mem_write, splitSign_write]
  dsimp only
  rw [hdigits]
  dsimp only
  rw [if_neg hlength, hvalue, signed_natAbs]

/-- A text that begins with a digit and has a hyphen in it is no numeral. -/
theorem readInteger_of_hyphen {c : Char} {rest : List Char} (hc : c.isDigit = true)
    (h : '-' ∈ rest) (hblank : ∀ x ∈ c :: rest, isBlank x = false) :
    readInteger (c :: rest) = .error .malformed := by
  have hdigits : groupedDigits? (c :: rest) = none :=
    groupedDigits?_of_foreign (List.mem_cons_of_mem c h) (by decide) (by decide)
  rw [readInteger, trimNumber_eq_self hblank, splitSign_of_isDigit hc]
  dsimp only
  rw [hdigits]

end

end EntityApi.Numeral
