import EntityApi.Proofs.Text.UpperCase
import EntityApi.Proofs.Value.Texts
import EntityApi.Scalar
import Mathlib.Logic.Relation

/-! # Spellings of a storage type

The tag of a storage type is the upper case of its name, which is what stands before
the first parenthesis, without the blanks around it (`tagChars_eq`). Trimming, cutting
and upper case may come in any order, and so each change of spelling is followed by
the name alone: parameters and blanks leave it as it is, and other cases of its ASCII
letters have the same upper case. -/
namespace EntityApi.StorageType

open Text (Padded Trimmed isBlank trimChars upperChars)

/-- The spellings of a storage type differ by one change. -/
inductive Respells : String → String → Prop
  /-- Parameters are added, or whatever else begins with a parenthesis. -/
  | parameters (s x : String) : Respells s (s ++ "(" ++ x)
  /-- Blanks are put around. -/
  | padded {s t : String} (h : Padded s.toList t.toList) : Respells s t
  /-- Blanks are put before the first parenthesis. -/
  | spaced {name blanks x : String} (hname : '(' ∉ name.toList)
      (hblanks : ∀ c ∈ blanks.toList, isBlank c = true) :
      Respells (name ++ "(" ++ x) (name ++ blanks ++ "(" ++ x)
  /-- ASCII letters are of another case. -/
  | recased {s t : String} (h : s.toLower = t.toLower) : Respells s t

/-- Both texts are types of one scalar, or both are refused as types of none. -/
def SameScalar (s t : String) : Prop :=
  (∃ k, scalar (.text s) = .ok k ∧ scalar (.text t) = .ok k) ∨
    scalar (.text s) = .error (.unsupportedType (Text.quoted s) none) ∧
      scalar (.text t) = .error (.unsupportedType (Text.quoted t) none)

/-! ## Names -/

/-- What stands before the first parenthesis. -/
def headChars (s : List Char) : List Char := s.takeWhile (· != '(')

/-- The same without the blanks around it. -/
def nameChars (s : List Char) : List Char := trimChars (headChars s)

variable {s t : List Char}

theorem headChars_of_not_mem (h : '(' ∉ s) : headChars s = s := by
  refine List.takeWhile_eq_self_iff.mpr fun c hc => bne_iff_ne.mpr ?_
  rintro rfl
  exact h hc

theorem not_mem_headChars (s : List Char) : '(' ∉ headChars s := by
  intro h
  have hne := List.mem_takeWhile_imp h
  cases hne

theorem headChars_append (s t : List Char) :
    headChars (s ++ t) = headChars s ++ if '(' ∈ s then [] else headChars t := by
  induction s with
  | nil => rw [List.nil_append, if_neg List.not_mem_nil]; rfl
  | cons c s ih =>
    by_cases hc : c = '('
    · subst hc
      rw [if_pos List.mem_cons_self]
      rfl
    · have hkeep : ∀ rest, headChars (c :: rest) = c :: headChars rest :=
        fun _ => List.takeWhile_cons_of_pos (bne_iff_ne.mpr hc)
      rw [List.cons_append, hkeep, hkeep, ih, List.cons_append]
      simp only [List.mem_cons, Ne.symm hc, false_or]

theorem not_mem_of_blanks (h : ∀ c ∈ s, isBlank c = true) : '(' ∉ s := by
  intro hmem
  cases h '(' hmem

theorem headChars_padded (h : Padded s t) : Padded (headChars s) (headChars t) := by
  obtain ⟨before, after, rfl, hbefore, hafter⟩ := h
  -- the blanks at the end are cut off with the parameters, if there are any
  have hfirst := not_mem_of_blanks hbefore
  rw [headChars_append, headChars_append, headChars_of_not_mem hfirst, if_neg hfirst]
  refine ⟨before, _, rfl, hbefore, ?_⟩
  split
  · exact nofun
  · rw [headChars_of_not_mem (not_mem_of_blanks hafter)]
    exact hafter

theorem nameChars_padded (h : Padded s t) : nameChars t = nameChars s :=
  Text.trimChars_congr (headChars_padded h)

theorem nameChars_parameters (s x : List Char) : nameChars (s ++ '(' :: x) = nameChars s := by
  have hnone : headChars ('(' :: x) = [] := rfl
  rw [nameChars, headChars_append, hnone, ite_self, List.append_nil, nameChars]

/-- Blanks before the first parenthesis are blanks around the name. -/
theorem nameChars_spaced {blanks : List Char} (h : ∀ c ∈ blanks, isBlank c = true)
    (s x : List Char) : nameChars (s ++ blanks ++ '(' :: x) = nameChars (s ++ '(' :: x) := by
  rw [nameChars_parameters, nameChars_parameters]
  exact nameChars_padded ⟨[], blanks, rfl, nofun, h⟩

theorem nameChars_map_toLower (s : List Char) :
    nameChars (s.map Char.toLower) = (nameChars s).map Char.toLower := by
  unfold nameChars headChars
  rw [Text.takeWhile_map_toLower, Text.trimChars_map_toLower]

theorem not_mem_nameChars (s : List Char) : '(' ∉ nameChars s := by
  intro h
  obtain ⟨before, after, hs, -⟩ := Text.padded_trimChars (headChars s)
  refine not_mem_headChars s ?_
  rw [hs]
  exact List.mem_append_right _ (List.mem_append_left _ h)

/-! ## Tags -/

/-- The tag is the name in upper case. -/
theorem tagChars_eq (s : List Char) : tagChars s = upperChars (nameChars s) := by
  have hname : trimChars (headChars (trimChars s)) = nameChars s :=
    (nameChars_padded (Text.padded_trimChars s)).symm
  rw [tagChars, Text.takeWhile_upperChars, Text.trimChars_upperChars]
  exact congrArg upperChars hname

theorem tagChars_of_name (h : nameChars s = nameChars t) : tagChars s = tagChars t := by
  rw [tagChars_eq, tagChars_eq, h]

theorem nameChars_tagChars (s : List Char) : nameChars (tagChars s) = tagChars s := by
  have hhead : headChars (nameChars s) = nameChars s := headChars_of_not_mem (not_mem_nameChars s)
  rw [tagChars_eq, nameChars, headChars, Text.takeWhile_upperChars, Text.trimChars_upperChars]
  refine congrArg upperChars ((congrArg trimChars hhead).trans ?_)
  exact Text.trimChars_trimChars _

theorem tagChars_tagChars (s : List Char) : tagChars (tagChars s) = tagChars s := by
  rw [tagChars_eq (tagChars s), nameChars_tagChars, tagChars_eq, Text.upperChars_upperChars]

theorem not_mem_tagChars (s : List Char) : '(' ∉ tagChars s := by
  rw [← nameChars_tagChars]
  exact not_mem_nameChars _

theorem trimmed_tagChars (s : List Char) : Trimmed (tagChars s) := Text.trimmed_trimChars _

theorem tagChars_map_toLower (s : List Char) : tagChars (s.map Char.toLower) = tagChars s := by
  rw [tagChars_eq, nameChars_map_toLower, Text.upperChars_map_toLower, tagChars_eq]

/-- A change of spelling leaves the tag as it is. -/
theorem Respells.tagChars_eq {s t : String} (h : Respells s t) :
    tagChars s.toList = tagChars t.toList := by
  cases h with
  | parameters s x =>
    simp only [String.toList_append, List.append_assoc]
    exact tagChars_of_name (nameChars_parameters s.toList x.toList).symm
  | padded h => exact tagChars_of_name (nameChars_padded h).symm
  | @spaced name blanks x _ hblanks =>
    have hname := nameChars_spaced hblanks name.toList x.toList
    simp only [List.append_assoc] at hname
    simp only [String.toList_append, List.append_assoc]
    exact tagChars_of_name hname.symm
  | recased h =>
    have hlower := congrArg String.toList h
    rw [Text.toList_toLower, Text.toList_toLower] at hlower
    rw [← tagChars_map_toLower, hlower, tagChars_map_toLower]

theorem tag_of_respelled {s t : String} (h : Relation.EqvGen Respells s t) : tag s = tag t := by
  induction h with
  | rel s t h => exact congrArg String.ofList h.tagChars_eq
  | refl s => rfl
  | symm s t _ ih => exact ih.symm
  | trans s t u _ _ ih ih' => exact ih.trans ih'

/-! ## Scalars -/

theorem tagOf_text (s : String) : tagOf (.text s) = .ok (tag s) := by
  unfold tagOf
  split
  · rfl
  · rename_i h
    have hempty : s = "" := by simpa [Value.truthy] using h
    rw [hempty]

theorem scalar_text (s : String) : scalar (.text s) =
    (scalarOfTag? (tag s)).elim (.error (.unsupportedType (Text.quoted s) none)) .ok := by
  unfold scalar
  rw [tagOf_text, Result.ok_bind]
  cases scalarOfTag? (tag s) <;> rfl

theorem sameScalar_of_tag {s t : String} (h : tag s = tag t) : SameScalar s t := by
  unfold SameScalar
  rw [scalar_text, scalar_text, h]
  cases scalarOfTag? (tag t) with
  | some k => exact .inl ⟨k, rfl, rfl⟩
  | none => exact .inr ⟨rfl, rfl⟩

/-- **All spellings of a storage type have one tag, and with it one scalar or none.** The tag is
what stands before the first parenthesis, trimmed and in upper case. It is a spelling of itself that
holds no parenthesis and has no blanks around it. -/
theorem spellings_agree :
    (∀ s, tagOf (.text s) = .ok (tag s) ∧
      tag s = Text.upper (Text.trim (String.ofList (s.toList.takeWhile (· != '(')))) ∧
      tag (tag s) = tag s ∧ SameScalar s (tag s) ∧
      '(' ∉ (tag s).toList ∧ Trimmed (tag s).toList) ∧
    ∀ s t, Relation.EqvGen Respells s t → tag s = tag t ∧ SameScalar s t := by
  constructor
  · intro s
    have hchars : (tag s).toList = tagChars s.toList := String.toList_ofList
    have htwice : tag (tag s) = tag s := by
      rw [tag, hchars, tagChars_tagChars]
      rfl
    refine ⟨tagOf_text s, ?_, htwice, sameScalar_of_tag htwice.symm, ?_, ?_⟩
    · rw [tag, StorageType.tagChars_eq, Text.upper, Text.trim, String.toList_ofList,
        String.toList_ofList]
      rfl
    · rw [hchars]
      exact not_mem_tagChars _
    · rw [hchars]
      exact trimmed_tagChars _
  · intro s t h
    exact ⟨tag_of_respelled h, sameScalar_of_tag (tag_of_respelled h)⟩

/-- A type in another case, with a blank before its parameters and a line break after them. -/
theorem spellings_agree_of_decimal :
    Relation.EqvGen Respells "decimal" "Decimal (10, 2)\n" ∧ tag "Decimal (10, 2)\n" = "DECIMAL" ∧
      scalar (.text "Decimal (10, 2)\n") = .ok .float := by
  have hlower : "decimal".toLower = "Decimal".toLower := by
    rw [← String.toList_inj, Text.toList_toLower, Text.toList_toLower]
    decide +kernel
  have hcase : Respells "decimal" "Decimal" := .recased hlower
  have hparameters : Respells "Decimal" "Decimal(10, 2)" := .parameters "Decimal" "10, 2)"
  have hblank : Respells "Decimal(10, 2)" "Decimal (10, 2)" :=
    @Respells.spaced "Decimal" " " "10, 2)" (by decide +kernel) (List.forall_mem_singleton.mpr rfl)
  have hbreak : Respells "Decimal (10, 2)" "Decimal (10, 2)\n" :=
    .padded ⟨[], ['\n'], by decide +kernel, List.forall_mem_nil _, List.forall_mem_singleton.mpr rfl⟩
  have hspelled : Relation.EqvGen Respells "decimal" "Decimal (10, 2)\n" :=
    .trans _ _ _ (.trans _ _ _ (.rel _ _ hcase) (.rel _ _ hparameters))
      (.trans _ _ _ (.rel _ _ hblank) (.rel _ _ hbreak))
  obtain ⟨htag, hscalar⟩ := spellings_agree.2 _ _ hspelled
  have hplain : tag "decimal" = "DECIMAL" := by decide +kernel
  have hfloat : scalar (.text "decimal") = .ok .float := by rfl
  refine ⟨hspelled, htag.symm.trans hplain, ?_⟩
  rcases hscalar with ⟨k, hk, hother⟩ | ⟨hnone, -⟩
  · rw [hother, ← hk, hfloat]
  · cases hfloat.symm.trans hnone

end EntityApi.StorageType
