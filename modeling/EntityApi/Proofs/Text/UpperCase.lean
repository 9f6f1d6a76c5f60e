import EntityApi.Proofs.Text.Blanks
import EntityApi.Text.UpperCase
import Mathlib.Data.List.Basic
import Mathlib.Data.Nat.Bitwise

/-! # What upper case changes

The codes that the table makes are none of those that it changes, so what is in upper
case stays as it is (`upperChars_upperChars`). Blanks and opening parentheses are
neither changed nor made (`eq_of_isBreak_of_mem`). Therefore a text can be trimmed, or
cut at its first parenthesis, before or after it is put into upper case
(`trimChars_upperChars`, `takeWhile_upperChars`). The case of ASCII letters plays no
part in any of this (`toLower_alike`). -/
namespace EntityApi.Text

/-! ## Lists of codes without a common code -/

/-- The number whose bits are the codes of a list. -/
def mask (codes : List Nat) : Nat := codes.foldr (fun n m => 1 <<< n ||| m) 0

theorem testBit_mask {codes : List Nat} {n : Nat} : (mask codes).testBit n = true ↔ n ∈ codes := by
  induction codes with
  | nil => simp [mask]
  | cons m codes ih =>
    have hcons : mask (m :: codes) = 1 <<< m ||| mask codes := rfl
    rw [hcons, Nat.testBit_or, Bool.or_eq_true, ih, Nat.one_shiftLeft, Nat.testBit_two_pow,
      decide_eq_true_iff, List.mem_cons]
    exact or_congr eq_comm Iff.rfl

/-- Lists of thousands of codes are compared by their masks, not code by code. -/
theorem disjoint_of_mask {a b : List Nat} (h : Nat.land (mask a) (mask b) = 0) : a.Disjoint b := by
  intro n ha hb
  have hbit : (mask a &&& mask b).testBit n = (0 : Nat).testBit n := congrArg (Nat.testBit · n) h
  rw [Nat.testBit_and, testBit_mask.mpr ha, testBit_mask.mpr hb, Nat.zero_testBit] at hbit
  cases hbit

/-! ## The table -/

namespace CaseRun

/-- How far the codes of a run are from its first. -/
def distances (r : CaseRun) : List Nat :=
  (List.range ((r.last - r.first) / r.stride + 1)).map (r.stride * ·)

theorem mem_distances {r : CaseRun} {n : Nat} (h : r.covers n = true) :
    r.first ≤ n ∧ n - r.first ∈ r.distances := by
  simp only [covers, Bool.and_eq_true, decide_eq_true_eq, beq_iff_eq] at h
  obtain ⟨⟨hfirst, hlast⟩, hstep⟩ := h
  refine ⟨hfirst, List.mem_map.mpr ⟨(n - r.first) / r.stride, ?_, ?_⟩⟩
  · rw [List.mem_range, Nat.lt_succ_iff]
    exact Nat.div_le_div_right (by omega)
  · exact Nat.mul_div_cancel' (Nat.dvd_of_mod_eq_zero hstep)

end CaseRun

/-- The codes that the table changes. -/
def changedCodes : List Nat :=
  (upperRuns.flatMap fun r => r.distances.map (r.first + ·)) ++ upperExpansions.map Prod.fst

/-- The codes that the table makes of others. -/
def madeCodes : List Nat :=
  (upperRuns.flatMap fun r => r.distances.map (r.target + ·)) ++ upperExpansions.flatMap Prod.snd

/-- The codes of blanks and of the opening parenthesis. -/
def breakCodes : List Nat :=
  List.range' 9 5 ++ List.range' 28 5 ++ [40, 0x85, 0xA0, 0x1680] ++ List.range' 0x2000 11 ++
    [0x2028, 0x2029, 0x202F, 0x205F, 0x3000]

/-- The ASCII codes that are not those of small letters. -/
def plainCodes : List Nat := List.range 97 ++ List.range' 123 5

theorem made_disjoint : madeCodes.Disjoint (changedCodes ++ breakCodes) :=
  disjoint_of_mask (by decide +kernel)

theorem changed_disjoint : changedCodes.Disjoint (breakCodes ++ plainCodes) :=
  disjoint_of_mask (by decide +kernel)

theorem isValidChar_of_made : ∀ n ∈ madeCodes, n.isValidChar := by
  decide +kernel

theorem upperExpansions_ne_nil : ∀ e ∈ upperExpansions, e.2 ≠ [] := by
  decide +kernel

variable {n m : Nat}

theorem upperCodes_of_not_changed (h : n ∉ changedCodes) : upperCodes n = [n] := by
  have hruns : upperRuns.find? (·.covers n) = none := by
    rw [List.find?_eq_none]
    intro r hr hcovers
    obtain ⟨hfirst, hdistance⟩ := CaseRun.mem_distances hcovers
    refine h (List.mem_append_left _ (List.mem_flatMap.mpr ⟨r, hr, ?_⟩))
    exact List.mem_map.mpr ⟨_, hdistance, Nat.add_sub_cancel' hfirst⟩
  have hexpansions : upperExpansions.find? (·.1 == n) = none := by
    rw [List.find?_eq_none]
    intro e he heq
    exact h (List.mem_append_right _ (List.mem_map.mpr ⟨e, he, beq_iff_eq.mp heq⟩))
  rw [upperCodes, hruns]
  dsimp only
  rw [hexpansions]

/-- A code of an upper case is made by the table, or it is the code itself. -/
theorem mem_upperCodes (h : m ∈ upperCodes n) : m ∈ madeCodes ∨ m = n ∧ upperCodes n = [n] := by
  unfold upperCodes at h ⊢
  split at h
  · rename_i r hr
    have hcovers : r.covers n = true := by simpa using List.find?_some hr
    obtain ⟨-, hdistance⟩ := CaseRun.mem_distances hcovers
    refine .inl (List.mem_append_left _ (List.mem_flatMap.mpr ⟨r, List.mem_of_find?_eq_some hr, ?_⟩))
    exact List.mem_map.mpr ⟨_, hdistance, (List.mem_singleton.mp h).symm⟩
  · split at h
    · rename_i e he
      refine .inl (List.mem_append_right _ (List.mem_flatMap.mpr ⟨e, ?_, h⟩))
      exact List.mem_of_find?_eq_some he
    · exact .inr ⟨List.mem_singleton.mp h, rfl⟩

/-- Upper case leads nowhere from where it leads. -/
theorem upperCodes_of_mem (h : m ∈ upperCodes n) : upperCodes m = [m] := by
  rcases mem_upperCodes h with h | ⟨rfl, hself⟩
  · exact upperCodes_of_not_changed fun hchanged => made_disjoint h (List.mem_append_left _ hchanged)
  · exact hself

theorem upperCodes_of_break (h : n ∈ breakCodes) : upperCodes n = [n] :=
  upperCodes_of_not_changed fun hchanged => changed_disjoint hchanged (List.mem_append_left _ h)

theorem eq_of_break_of_mem (h : m ∈ upperCodes n) (hm : m ∈ breakCodes) : m = n := by
  rcases mem_upperCodes h with h | ⟨heq, -⟩
  · exact absurd (List.mem_append_right _ hm) (made_disjoint h)
  · exact heq

theorem upperCodes_ne_nil (n : Nat) : upperCodes n ≠ [] := by
  unfold upperCodes
  split
  · exact List.cons_ne_nil _ _
  · split
    · rename_i e he
      exact upperExpansions_ne_nil e (List.mem_of_find?_eq_some he)
    · exact List.cons_ne_nil _ _

theorem upperCodes_ascii (h : n < 128) : upperCodes n = [if 97 ≤ n ∧ n ≤ 122 then n - 32 else n] := by
  split
  · rename_i hletter
    have hfind : upperRuns.find? (·.covers n) = some ⟨97, 122, 1, 65⟩ := by
      refine List.find?_cons_of_pos ?_
      simp only [CaseRun.covers, Bool.and_eq_true, decide_eq_true_eq, beq_iff_eq]
      omega
    rw [upperCodes, hfind]
    simp only [CaseRun.image]
    congr 1
    omega
  · rename_i hother
    refine upperCodes_of_not_changed fun hchanged => changed_disjoint hchanged ?_
    refine List.mem_append_right _ ?_
    simp only [plainCodes, List.mem_append, List.mem_range, List.mem_range'_1]
    omega

/-! ## Characters -/

variable {c d : Char} {s t : List Char}

/-- What is told of ASCII letters by itself is what the table says. -/
theorem upperChar_eq (c : Char) : upperChar c = (upperCodes c.toNat).map Char.ofNat := by
  unfold upperChar
  split
  · rename_i hascii
    rw [upperCodes_ascii hascii, List.map_singleton]
    have hletter : ('a' ≤ c ∧ c ≤ 'z') ↔ 97 ≤ c.toNat ∧ c.toNat ≤ 122 := Iff.rfl
    by_cases h : 97 ≤ c.toNat ∧ c.toNat ≤ 122
    · rw [if_pos (hletter.mpr h), if_pos h]
    · rw [if_neg (mt hletter.mp h), if_neg h, Char.ofNat_toNat]
  · rfl

theorem upperChar_ne_nil (c : Char) : upperChar c ≠ [] := by
  rw [upperChar_eq, ne_eq, List.map_eq_nil_iff]
  exact upperCodes_ne_nil _

theorem toNat_mem_upperCodes (h : d ∈ upperChar c) : d.toNat ∈ upperCodes c.toNat := by
  rw [upperChar_eq] at h
  obtain ⟨m, hm, rfl⟩ := List.mem_map.mp h
  have hvalid : m.isValidChar := by
    rcases mem_upperCodes hm with hmade | ⟨rfl, -⟩
    · exact isValidChar_of_made m hmade
    · exact c.valid
  have hcode : (Char.ofNat m).toNat = m := by
    rw [Char.ofNat, dif_pos hvalid]
    rfl
  rwa [hcode]

theorem upperChar_of_upperCodes (h : upperCodes c.toNat = [c.toNat]) : upperChar c = [c] := by
  rw [upperChar_eq, h, List.map_singleton, Char.ofNat_toNat]

theorem upperChar_of_mem (h : d ∈ upperChar c) : upperChar d = [d] :=
  upperChar_of_upperCodes (upperCodes_of_mem (toNat_mem_upperCodes h))

/-- A blank or an opening parenthesis. -/
def isBreak (c : Char) : Bool := isBlank c || c == '('

theorem mem_breakCodes : c.toNat ∈ breakCodes ↔ isBreak c = true := by
  have hopening : c = '(' ↔ c.toNat = 40 := by
    rw [← Char.toNat_inj]
    rfl
  simp only [isBreak, isBlank, Bool.or_eq_true, decide_eq_true_eq, beq_iff_eq, hopening, breakCodes,
    List.mem_append, List.mem_range'_1, List.mem_cons, List.not_mem_nil, or_false]
  omega

theorem upperChar_of_isBreak (h : isBreak c = true) : upperChar c = [c] :=
  upperChar_of_upperCodes (upperCodes_of_break (mem_breakCodes.mpr h))

/-- Breaks are the upper case of nothing but themselves. -/
theorem eq_of_isBreak_of_mem (h : d ∈ upperChar c) (hd : isBreak d = true) : d = c :=
  Char.toNat_inj.mp (eq_of_break_of_mem (toNat_mem_upperCodes h) (mem_breakCodes.mpr hd))

theorem isBlank_of_mem_upperChar (h : d ∈ upperChar c) : isBlank d = isBlank c := by
  rw [Bool.eq_iff_iff]
  constructor
  · intro hd
    rwa [← eq_of_isBreak_of_mem h (by simp [isBreak, hd])]
  · intro hc
    rw [upperChar_of_isBreak (by simp [isBreak, hc]), List.mem_singleton] at h
    rwa [h]

theorem capital_toLower : ∀ k < 26, let c := Char.ofNat (65 + k)
    upperChar c.toLower = upperChar c ∧ isBlank c.toLower = isBlank c ∧
      (c.toLower != '(') = (c != '(') := by
  decide

/-- The small letters of ASCII differ from the capital ones in nothing that counts here. -/
theorem toLower_alike (c : Char) : upperChar c.toLower = upperChar c ∧
    isBlank c.toLower = isBlank c ∧ (c.toLower != '(') = (c != '(') := by
  by_cases h : 65 ≤ c.toNat ∧ c.toNat ≤ 90
  · have hletter := capital_toLower (c.toNat - 65) (by omega)
    dsimp only at hletter
    rwa [Nat.add_sub_cancel' h.1, Char.ofNat_toNat] at hletter
  · have hother : c.toLower = c := dif_neg h
    rw [hother]
    exact ⟨rfl, rfl, rfl⟩

/-! ## Texts -/

theorem upperChars_cons (c : Char) (s : List Char) : upperChars (c :: s) = upperChar c ++ upperChars s :=
  List.flatMap_cons

theorem upperChars_eq_self (h : ∀ c ∈ s, upperChar c = [c]) : upperChars s = s := by
  induction s with
  | nil => rfl
  | cons c s ih =>
    obtain ⟨hc, hs⟩ := List.forall_mem_cons.mp h
    rw [upperChars_cons, hc, ih hs, List.singleton_append]

/-- What is in upper case stays as it is. -/
theorem upperChars_upperChars (s : List Char) : upperChars (upperChars s) = upperChars s := by
  refine upperChars_eq_self fun d hd => ?_
  obtain ⟨c, _, hc⟩ := List.mem_flatMap.mp hd
  exact upperChar_of_mem hc

theorem isBlank_head_upperChars (h : ∀ c, s.head? = some c → isBlank c = false) :
    ∀ d, (upperChars s).head? = some d → isBlank d = false := by
  intro d hd
  cases s with
  | nil => cases hd
  | cons c s =>
    rw [upperChars_cons, List.head?_append_of_ne_nil _ (upperChar_ne_nil c)] at hd
    rw [isBlank_of_mem_upperChar (List.mem_of_head? hd)]
    exact h c rfl

theorem isBlank_getLast_upperChars (h : ∀ c, s.getLast? = some c → isBlank c = false) :
    ∀ d, (upperChars s).getLast? = some d → isBlank d = false := by
  intro d hd
  rcases List.eq_nil_or_concat s with rfl | ⟨s, c, rfl⟩
  · cases hd
  · rw [List.concat_eq_append, upperChars_append,
      List.getLast?_append_of_ne_nil _ (by simpa [upperChars] using upperChar_ne_nil c)] at hd
    rw [isBlank_of_mem_upperChar (c := c) (by simpa [upperChars] using List.mem_of_getLast? hd)]
    exact h c (by simp)

theorem trimChars_upperChars (s : List Char) : trimChars (upperChars s) = upperChars (trimChars s) := by
  obtain ⟨before, after, hs, hbefore, hafter⟩ := padded_trimChars s
  have hblanks : ∀ blanks : List Char, (∀ c ∈ blanks, isBlank c = true) → upperChars blanks = blanks :=
    fun _ h => upperChars_eq_self fun c hc => upperChar_of_isBreak (by simp [isBreak, h c hc])
  obtain ⟨hfirst, hlast⟩ := trimmed_trimChars s
  refine trimChars_of_ends (isBlank_head_upperChars hfirst) (isBlank_getLast_upperChars hlast)
    ⟨before, after, ?_, hbefore, hafter⟩
  conv_lhs => rw [hs, upperChars_append, upperChars_append, hblanks _ hbefore, hblanks _ hafter]

theorem takeWhile_upperChars (s : List Char) :
    (upperChars s).takeWhile (· != '(') = upperChars (s.takeWhile (· != '(')) := by
  induction s with
  | nil => rfl
  | cons c s ih =>
    rw [upperChars_cons]
    by_cases hc : c = '('
    · subst hc
      rfl
    · have hname : ∀ d ∈ upperChar c, (d != '(') = true := by
        intro d hd
        rw [bne_iff_ne]
        rintro rfl
        exact hc (eq_of_isBreak_of_mem hd rfl).symm
      rw [List.takeWhile_append_of_pos hname, ih, List.takeWhile_cons_of_pos (by simpa using hc),
        upperChars_cons]

/-! ## The case of ASCII letters -/

theorem toList_toLower (s : String) : s.toLower.toList = s.toList.map Char.toLower :=
  String.toList_map

theorem upperChars_map_toLower (s : List Char) :
    upperChars (s.map Char.toLower) = upperChars s := by
  induction s with
  | nil => rfl
  | cons c s ih => rw [List.map_cons, upperChars_cons, upperChars_cons, ih, (toLower_alike c).1]

theorem trimChars_map_toLower (s : List Char) :
    trimChars (s.map Char.toLower) = (trimChars s).map Char.toLower := by
  have hblank : isBlank ∘ Char.toLower = isBlank := funext fun c => (toLower_alike c).2.1
  simp only [trimChars, trimRight, trimLeft, List.dropWhile_map, ← List.map_reverse, hblank]

theorem takeWhile_map_toLower (s : List Char) :
    (s.map Char.toLower).takeWhile (· != '(') = (s.takeWhile (· != '(')).map Char.toLower := by
  have hopening : (· != '(') ∘ Char.toLower = (· != '(') := funext fun c => (toLower_alike c).2.2
  rw [List.takeWhile_map, hopening]

end EntityApi.Text
