import EntityApi.Proofs.Precedence
import EntityApi.Proofs.Schema.Texts

/-! # The names of signature lines

A signature line is known by the name at its start (`Begins`): blanks may come before
it, and it goes on as long as there are characters of names. Just that name is read off
a line (`signatureName_eq_ok`), and a line that begins with no name has none
(`nameless_iff`). -/
namespace EntityApi.Schema

/-- The line begins with the name, after blanks if there are any, and the name ends there. -/
def Begins (line name : String) : Prop :=
  ∃ before rest, line.toList = before ++ (name.toList ++ rest) ∧
    (∀ c ∈ before, Text.isBlank c = true) ∧ IsName name ∧
    ∀ c, rest.head? = some c → isNameChar c = false

theorem isNameChar_of_isNameStart {c : Char} (h : isNameStart c = true) : isNameChar c = true := by
  rw [isNameChar, h, Bool.true_or]

theorem isBlank_of_isNameChar {c : Char} (h : isNameChar c = true) : Text.isBlank c = false := by
  have hle : ∀ a b : Char, a ≤ b ↔ a.toNat ≤ b.toNat := fun _ _ => Iff.rfl
  have hvalues : 'A'.toNat = 65 ∧ 'Z'.toNat = 90 ∧ 'a'.toNat = 97 ∧ 'z'.toNat = 122 ∧
    '0'.toNat = 48 ∧ '9'.toNat = 57 := by decide
  simp only [isNameChar, isNameStart, Bool.or_eq_true, decide_eq_true_eq, beq_iff_eq, hle] at h
  rcases h with ((rfl | h) | h) | h
  · rfl
  all_goals
    simp only [Text.isBlank, Bool.or_eq_false_iff, decide_eq_false_iff_not, beq_eq_false_iff_ne]
    omega

/-- The longest name at the start is the one that no character of names follows. -/
theorem takeName_append {name : String} (h : IsName name) {rest : List Char}
    (hrest : ∀ c, rest.head? = some c → isNameChar c = false) :
    takeName (name.toList ++ rest) = name.toList := by
  obtain ⟨c, more, hname, hc, hmore⟩ := h
  have hstop : rest.takeWhile isNameChar = [] := by
    cases rest with
    | nil => rfl
    | cons d rest => exact List.takeWhile_cons_of_neg (by simp [hrest d rfl])
  rw [hname, List.cons_append, takeName, if_pos hc,
    List.takeWhile_append_of_pos (List.all_eq_true.mp hmore), hstop, List.append_nil]

/-- What is taken from the start is a name that ends where it was cut off. -/
theorem exists_of_takeName {s : List Char} {name : String} (h : takeName s = name.toList)
    (hne : takeName s ≠ []) :
    ∃ rest, s = name.toList ++ rest ∧ IsName name ∧
      ∀ c, rest.head? = some c → isNameChar c = false := by
  cases s with
  | nil => exact absurd rfl hne
  | cons c s =>
    cases hc : isNameStart c with
    | false => simp [takeName, hc] at hne
    | true =>
      rw [takeName, if_pos hc] at h
      refine ⟨s.dropWhile isNameChar, ?_, ⟨c, _, h.symm, hc, List.all_takeWhile⟩, fun d hd => ?_⟩
      · rw [← h, List.cons_append, List.takeWhile_append_dropWhile]
      · have hhead := List.head?_dropWhile_not isNameChar s
        rw [hd] at hhead
        exact hhead

theorem signatureName_eq_ok_iff_takeName {line name : String} : signatureName line = .ok name ↔
    takeName (Text.trimLeft line.toList) = name.toList ∧
      takeName (Text.trimLeft line.toList) ≠ [] := by
  unfold signatureName
  cases takeName (Text.trimLeft line.toList) with
  | nil => simp
  | cons c more => simp [String.ext_iff]

/-- The name of a line is the one that it begins with. -/
theorem signatureName_eq_ok {line name : String} :
    signatureName line = .ok name ↔ Begins line name := by
  rw [signatureName_eq_ok_iff_takeName]
  constructor
  · rintro ⟨htake, hne⟩
    obtain ⟨before, hline, hbefore⟩ := Text.exists_trimLeft line.toList
    obtain ⟨rest, htrim, hname, hrest⟩ := exists_of_takeName htake hne
    exact ⟨before, rest, htrim ▸ hline, hbefore, hname, hrest⟩
  · rintro ⟨before, rest, hline, hbefore, hname, hrest⟩
    have htrim : Text.trimLeft line.toList = name.toList ++ rest := by
      obtain ⟨c, more, hchars, hc, _⟩ := hname
      rw [hline, Text.trimLeft_append hbefore, hchars, List.cons_append]
      exact List.dropWhile_cons_of_neg (by
        simp [isBlank_of_isNameChar (isNameChar_of_isNameStart hc)])
    have htake := takeName_append hname hrest
    obtain ⟨c, more, hchars, _, _⟩ := hname
    rw [htrim, htake, hchars]
    exact ⟨rfl, List.cons_ne_nil _ _⟩

/-- A line without a name begins with none. -/
theorem nameless_iff {line : String} : Nameless line ↔ ∀ name, ¬Begins line name := by
  have hread : (∃ name, signatureName line = .ok name) ↔ ¬Nameless line :=
    Result.isOk_iff_of_eq_error (fun _ _ => signatureName_eq_error) line
  simp only [signatureName_eq_ok] at hread
  rw [← not_exists, hread, not_not]

end EntityApi.Schema
