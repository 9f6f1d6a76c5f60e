import EntityApi.Proofs.Filter.Compiled
import EntityApi.Proofs.Number.PlainNumerals
import EntityApi.Proofs.Time.EpochMillis

/-! # How the value of a filter is read

A value in text form means a condition under the value type of its filter (`Means`), or
it is misread for one cause (`Misread`). Both are said of the text alone: of its
numerals, of its commas, of the instants that it names. Either is what the filter comes
to (`conditionFor_of_means`, `conditionFor_of_misread`), and there is always one of them
(`means_or_misread`). -/
namespace EntityApi.Filter

open Numeral (Plain)
open Moment (Reached)

/-- The value types with a reading of their own. -/
def namedTypes : List String := ["Int", "Float", "String", "Date"]

/-- The text has just one comma, and this is what stands before and after it. -/
structure Halves (s a b : List Char) : Prop where
  split : s = a ++ ',' :: b
  left : ',' ∉ a
  right : ',' ∉ b

/-- The condition on the column that the value means under a value type. -/
inductive Means (column : Value) : Value → String → Condition → Prop
  | number {v : String} {n : Int} (hn : Plain v.toList n) :
      Means column (.text "Int") v ⟨column, .equal, .int n⟩
  | real {v : String} {x : Binary64} (hx : Numeral.readReal? (Text.trimChars v.toList) = some x)
      (hfinite : x.isFinite = true) : Means column (.text "Float") v ⟨column, .equal, .real x⟩
  | part (v : String) :
      Means column (.text "String") v ⟨column, .like, .text (containing v)⟩
  | range {v : String} {a b : List Char} {lo hi : Int} {low high : Moment}
      (hparts : Halves v.toList a b) (hlo : Plain a lo) (hhi : Plain b hi)
      (hreached : Reached lo ∧ Reached hi) (hlow : low.Marks lo) (hhigh : high.Marks hi) :
      Means column (.text "Date") v ⟨column, .between, .list [.moment low, .moment high]⟩
  | raw {type : Value} (v : String) (htype : ∀ name ∈ namedTypes, type ≠ .text name) :
      Means column type v ⟨column, .equal, .text v⟩

/-- Why the value means nothing under a value type. The column is given as messages show it. -/
inductive Misread (column : String) : Value → String → FilterFault → Prop
  | notInteger {v : String} (h : ∀ n, ¬Plain v.toList n) :
      Misread column (.text "Int") v (.notInteger column v)
  | notNumber {v : String} (h : Numeral.readReal? (Text.trimChars v.toList) = none) :
      Misread column (.text "Float") v (.notNumber column v)
  | notFinite {v : String} {x : Binary64} (hx : Numeral.readReal? (Text.trimChars v.toList) = some x)
      (hfinite : x.isFinite = false) : Misread column (.text "Float") v (.notFinite column v)
  | partCount {v : String} (h : v.toList.count ',' ≠ 1) :
      Misread column (.text "Date") v (.partCount column (v.toList.count ',' + 1))
  | notMillisPair {v : String} {a b : List Char} (hparts : Halves v.toList a b)
      (h : (∀ lo, ¬Plain a lo) ∨ ∀ hi, ¬Plain b hi) :
      Misread column (.text "Date") v (.notMillisPair column v)
  | outOfRange {v : String} {a b : List Char} {lo hi : Int} (hparts : Halves v.toList a b)
      (hlo : Plain a lo) (hhi : Plain b hi) (h : ¬(Reached lo ∧ Reached hi)) :
      Misread column (.text "Date") v (.outOfRange column v)

/-! ## Commas -/

section

variable {s a b : List Char}

theorem splitCommas_of_not_mem (h : ',' ∉ s) : splitCommas s = [s] := by
  induction s with
  | nil => rfl
  | cons c s ih =>
    obtain ⟨hc, hs⟩ := not_or.mp (List.mem_cons.not.mp h)
    have hne : ¬(c == ',') = true := fun he => hc (beq_iff_eq.mp he).symm
    rw [splitCommas, if_neg hne, ih hs]

theorem splitCommas_append (h : ',' ∉ a) (b : List Char) :
    splitCommas (a ++ ',' :: b) = a :: splitCommas b := by
  induction a with
  | nil => rfl
  | cons c a ih =>
    obtain ⟨hc, ha⟩ := not_or.mp (List.mem_cons.not.mp h)
    have hne : ¬(c == ',') = true := fun he => hc (beq_iff_eq.mp he).symm
    rw [List.cons_append, splitCommas, if_neg hne, ih ha]

theorem splitCommas_of_halves (h : Halves s a b) : splitCommas s = [a, b] := by
  rw [h.split, splitCommas_append h.left, splitCommas_of_not_mem h.right]

/-- There is one part more than there are commas. -/
theorem length_splitCommas (s : List Char) : (splitCommas s).length = s.count ',' + 1 := by
  by_cases h : ',' ∈ s
  · obtain ⟨a, b, rfl, ha⟩ := List.eq_append_cons_of_mem h
    rw [splitCommas_append ha, List.length_cons, length_splitCommas b, List.count_append,
      List.count_eq_zero.mpr ha, List.count_cons_self, Nat.zero_add]
  · rw [splitCommas_of_not_mem h, List.count_eq_zero.mpr h]
    rfl
termination_by s.length

theorem exists_halves (h : s.count ',' = 1) : ∃ a b, Halves s a b := by
  obtain ⟨a, b, rfl, ha⟩ := List.eq_append_cons_of_mem (List.count_pos_iff.mp (h ▸ Nat.one_pos))
  refine ⟨a, b, rfl, ha, List.count_eq_zero.mp ?_⟩
  rw [List.count_append, List.count_eq_zero.mpr ha, List.count_cons_self] at h
  omega

end

/-! ## Values -/

section

variable {column type : Value} {v shown : String}

theorem conditionFor_raw (htype : ∀ name ∈ namedTypes, type ≠ .text name) (hkey : type.isKey = true) :
    conditionFor type column v = rawCondition column v := by
  unfold conditionFor
  split
  · exact absurd rfl (htype "Int" (by decide))
  · exact absurd rfl (htype "Float" (by decide))
  · exact absurd rfl (htype "String" (by decide))
  · exact absurd rfl (htype "Date" (by decide))
  · exact if_pos hkey

theorem readInteger_ofList {s : List Char} {n : Int} :
    readInteger (String.ofList s) = .ok n ↔ Plain s n := by
  rw [readInteger_eq_ok, String.toList_ofList]

theorem conditionFor_of_means {c : Condition} (h : Means column type v c) (hkey : type.isKey = true) :
    conditionFor type column v = .ok c := by
  cases h with
  | number hn =>
    change intCondition column v = _
    rw [intCondition, readInteger_eq_ok.mpr hn]
  | real hx hfinite =>
    change floatCondition column v = _
    rw [floatCondition, hx]
    exact if_pos hfinite
  | part => rfl
  | range hparts hlo hhi _ hlow hhigh =>
    change dateCondition column v = _
    rw [dateCondition, splitCommas_of_halves hparts]
    simp only [readInteger_ofList.mpr hlo, readInteger_ofList.mpr hhi,
      Moment.ofMillis?_of_marks hlow, Moment.ofMillis?_of_marks hhigh]
  | raw _ htype => exact conditionFor_raw htype hkey

theorem readInteger_of_not_plain (h : ∀ n, ¬Plain v.toList n) : ∃ e, readInteger v = .error e := by
  cases hr : readInteger v with
  | ok n => exact absurd (readInteger_eq_ok.mp hr) (h n)
  | error e => exact ⟨e, rfl⟩

theorem conditionFor_of_misread {fault : FilterFault} (h : Misread shown type v fault)
    (hshown : column.text? = .ok shown) :
    conditionFor type column v = .error (.malformedFilter fault) := by
  cases h with
  | notInteger h =>
    obtain ⟨e, he⟩ := readInteger_of_not_plain h
    change intCondition column v = _
    rw [intCondition, he]
    simp only [hshown]
    rfl
  | notNumber h =>
    change floatCondition column v = _
    rw [floatCondition, h]
    simp only [hshown]
    rfl
  | notFinite hx hfinite =>
    change floatCondition column v = _
    rw [floatCondition, hx]
    simp only [hshown, hfinite]
    rfl
  | partCount h =>
    change dateCondition column v = _
    rw [dateCondition]
    split
    · rename_i hparts
      have hlength := length_splitCommas v.toList
      rw [hparts] at hlength
      exact absurd (Nat.succ.inj hlength).symm h
    · rw [length_splitCommas, hshown]
      rfl
  | notMillisPair hparts h =>
    change dateCondition column v = _
    rw [dateCondition, splitCommas_of_halves hparts, hshown]
    dsimp only
    split
    · rename_i hlo hhi
      rcases h with h | h
      · exact absurd (readInteger_ofList.mp hlo) (h _)
      · exact absurd (readInteger_ofList.mp hhi) (h _)
    · rfl
  | outOfRange hparts hlo hhi h =>
    change dateCondition column v = _
    rw [dateCondition, splitCommas_of_halves hparts, hshown]
    simp only [readInteger_ofList.mpr hlo, readInteger_ofList.mpr hhi]
    split
    · rename_i hlow hhigh
      exact absurd ⟨Moment.reached_of_ofMillis? hlow, Moment.reached_of_ofMillis? hhigh⟩ h
    · rfl

/-- A value has a meaning or a fault. -/
theorem means_or_misread (column type : Value) (v shown : String) :
    (∃ c, Means column type v c) ∨ ∃ fault, Misread shown type v fault := by
  by_cases htype : ∃ name ∈ namedTypes, type = .text name
  · obtain ⟨name, hname, rfl⟩ := htype
    simp only [namedTypes, List.mem_cons, List.not_mem_nil, or_false] at hname
    rcases hname with rfl | rfl | rfl | rfl
    · by_cases h : ∃ n, Plain v.toList n
      · obtain ⟨n, hn⟩ := h
        exact .inl ⟨_, .number hn⟩
      · exact .inr ⟨_, .notInteger (not_exists.mp h)⟩
    · cases hx : Numeral.readReal? (Text.trimChars v.toList) with
      | none => exact .inr ⟨_, .notNumber hx⟩
      | some x =>
        cases hfinite : x.isFinite with
        | true => exact .inl ⟨_, .real hx hfinite⟩
        | false => exact .inr ⟨_, .notFinite hx hfinite⟩
    · exact .inl ⟨_, .part v⟩
    · by_cases hcount : v.toList.count ',' = 1
      · obtain ⟨a, b, hparts⟩ := exists_halves hcount
        by_cases hpair : (∃ lo, Plain a lo) ∧ ∃ hi, Plain b hi
        · obtain ⟨⟨lo, hlo⟩, hi, hhi⟩ := hpair
          by_cases hreached : Reached lo ∧ Reached hi
          · obtain ⟨low, hlow⟩ := Moment.exists_marks hreached.1
            obtain ⟨high, hhigh⟩ := Moment.exists_marks hreached.2
            exact .inl ⟨_, .range hparts hlo hhi hreached hlow hhigh⟩
          · exact .inr ⟨_, .outOfRange hparts hlo hhi hreached⟩
        · exact .inr ⟨_, .notMillisPair hparts ((not_and_or.mp hpair).imp not_exists.mp not_exists.mp)⟩
      · exact .inr ⟨_, .partCount hcount⟩
  · exact .inl ⟨_, .raw v fun name hname he => htype ⟨name, hname, he⟩⟩

end

end EntityApi.Filter
