import EntityApi.Filter.Compile
import EntityApi.Filter.Condition
import Mathlib.Data.List.Infix

/-! # What patterns match

`LIKE` as a relation between patterns and whole texts (`Matches`), which the
pieces of a pattern decide (`covers_parse`). A text that is escaped and put
between two percent signs is the pattern of all texts that contain it
(`matches_containing`), also where a final line feed may be left out
(`accepts_containing`). -/
namespace EntityApi

namespace Like

/-- A pattern matches a whole text: a percent sign matches any run of characters, an underscore any
one character, an exclamation mark with the next character that character, and at the end itself;
every other character matches itself. -/
inductive Matches : List Char → List Char → Prop
  | nil : Matches [] []
  | run (skipped : List Char) {p s : List Char} : Matches p s → Matches ('%' :: p) (skipped ++ s)
  | one (c : Char) {p s : List Char} : Matches p s → Matches ('_' :: p) (c :: s)
  | escaped (c : Char) {p s : List Char} : Matches p s → Matches ('!' :: c :: p) (c :: s)
  | alone : Matches ['!'] ['!']
  | ordinary {c : Char} {p s : List Char} : isSign c = false → Matches p s →
    Matches (c :: p) (c :: s)

/-- Exclamation marks stand only before signs. -/
inductive Proper : List Char → Prop
  | nil : Proper []
  | escaped {c : Char} {p : List Char} : isSign c = true → Proper p → Proper ('!' :: c :: p)
  | cons {c : Char} {p : List Char} : c ≠ '!' → Proper p → Proper (c :: p)

theorem isSign_eq_true {c : Char} : isSign c = true ↔ c = '!' ∨ c = '%' ∨ c = '_' := by
  simp [isSign, escapeSign, or_assoc]

theorem isSign_eq_false {c : Char} : isSign c = false ↔ c ≠ '!' ∧ c ≠ '%' ∧ c ≠ '_' := by
  simp [isSign, escapeSign, and_assoc]

/-- Induction over a pattern, by how it starts. -/
theorem pattern_induction {motive : List Char → Prop} (nil : motive []) (alone : motive ['!'])
    (escaped : ∀ c p, motive p → motive ('!' :: c :: p)) (run : ∀ p, motive p → motive ('%' :: p))
    (one : ∀ p, motive p → motive ('_' :: p))
    (ordinary : ∀ c p, isSign c = false → motive p → motive (c :: p)) : ∀ p, motive p
  | [] => nil
  | [c] => by
    by_cases hsign : isSign c = false
    · exact ordinary c [] hsign nil
    · rcases isSign_eq_true.mp (Bool.of_not_eq_false hsign) with rfl | rfl | rfl
      · exact alone
      · exact run [] nil
      · exact one [] nil
  | c :: d :: p => by
    have hrest : motive (d :: p) :=
      pattern_induction nil alone escaped run one ordinary (d :: p)
    by_cases hsign : isSign c = false
    · exact ordinary c _ hsign hrest
    · rcases isSign_eq_true.mp (Bool.of_not_eq_false hsign) with rfl | rfl | rfl
      · exact escaped d p (pattern_induction nil alone escaped run one ordinary p)
      · exact run _ hrest
      · exact one _ hrest

/-! ## How a match starts -/

section

variable {c : Char} {p s : List Char}

theorem matches_nil : Matches [] s ↔ s = [] := by
  constructor
  · intro h
    cases h
    rfl
  · rintro rfl
    exact .nil

theorem matches_run : Matches ('%' :: p) s ↔ ∃ skipped rest, s = skipped ++ rest ∧ Matches p rest := by
  constructor
  · intro h
    cases h with
    | run skipped h => exact ⟨skipped, _, rfl, h⟩
    | ordinary hc => cases hc
  · rintro ⟨skipped, rest, rfl, h⟩
    exact .run skipped h

theorem matches_one : Matches ('_' :: p) s ↔ ∃ d rest, s = d :: rest ∧ Matches p rest := by
  constructor
  · intro h
    cases h with
    | one d h => exact ⟨d, _, rfl, h⟩
    | ordinary hc => cases hc
  · rintro ⟨d, rest, rfl, h⟩
    exact .one d h

theorem matches_escaped : Matches ('!' :: c :: p) s ↔ ∃ rest, s = c :: rest ∧ Matches p rest := by
  constructor
  · intro h
    cases h with
    | escaped _ h => exact ⟨_, rfl, h⟩
    | ordinary hc => cases hc
  · rintro ⟨rest, rfl, h⟩
    exact .escaped c h

theorem matches_alone : Matches ['!'] s ↔ s = ['!'] := by
  constructor
  · intro h
    cases h with
    | alone => rfl
    | ordinary hc => cases hc
  · rintro rfl
    exact .alone

theorem matches_ordinary (hc : isSign c = false) :
    Matches (c :: p) s ↔ ∃ rest, s = c :: rest ∧ Matches p rest := by
  constructor
  · intro h
    cases h with
    | ordinary _ h => exact ⟨_, rfl, h⟩
    | _ => cases hc
  · rintro ⟨rest, rfl, h⟩
    exact .ordinary hc h

/-! ## How the pieces of a pattern cover a text -/

variable {ps : List Piece}

theorem covers_nil : covers [] s = true ↔ s = [] := by
  rw [covers, List.isEmpty_iff]

theorem covers_exactly {t : List Char} :
    covers (.exactly t :: ps) s = true ↔ ∃ rest, s = t ++ rest ∧ covers ps rest = true := by
  rw [covers, Bool.and_eq_true, List.isPrefixOf_iff_prefix]
  constructor
  · rintro ⟨⟨rest, rfl⟩, h⟩
    rw [List.drop_left] at h
    exact ⟨rest, rfl, h⟩
  · rintro ⟨rest, rfl, h⟩
    rw [List.drop_left]
    exact ⟨List.prefix_append t rest, h⟩

theorem covers_oneChar :
    covers (.oneChar :: ps) s = true ↔ ∃ d rest, s = d :: rest ∧ covers ps rest = true := by
  cases s with
  | nil => simp [covers]
  | cons d s => simp [covers]

theorem covers_anyRun :
    covers (.anyRun :: ps) s = true ↔
      ∃ skipped rest, s = skipped ++ rest ∧ covers ps rest = true := by
  induction s with
  | nil => simp [covers]
  | cons d s ih =>
    rw [covers, Bool.or_eq_true, ih]
    constructor
    · rintro (h | ⟨skipped, rest, rfl, h⟩)
      · exact ⟨[], _, rfl, h⟩
      · exact ⟨d :: skipped, rest, rfl, h⟩
    · rintro ⟨skipped, rest, hs, h⟩
      cases skipped with
      | nil => exact .inl (hs ▸ h)
      | cons e skipped =>
        obtain ⟨_, rfl⟩ := List.cons.inj hs
        exact .inr ⟨skipped, rest, rfl, h⟩

end

theorem parse_escaped (c : Char) (p : List Char) :
    parse ('!' :: c :: p) = .exactly [c] :: parse p := by
  unfold parse
  rw [List.map_cons, List.map_cons, piecesOf.eq_def]
  rfl

theorem parse_run (p : List Char) : parse ('%' :: p) = .anyRun :: parse p := by
  unfold parse
  rw [List.map_cons, piecesOf.eq_def]
  simp [escapeSign]

theorem parse_one (p : List Char) : parse ('_' :: p) = .oneChar :: parse p := by
  unfold parse
  rw [List.map_cons, piecesOf.eq_def]
  simp [escapeSign]

theorem parse_ordinary {c : Char} (hc : isSign c = false) (p : List Char) :
    parse (c :: p) = .exactly [c] :: parse p := by
  obtain ⟨hescape, hrun, hone⟩ := isSign_eq_false.mp hc
  unfold parse
  rw [List.map_cons, piecesOf.eq_def]
  simp [escapeSign, hescape, hrun, hone]

/-- The pieces that a pattern is read as cover a text exactly if the pattern matches it. -/
theorem covers_parse (p s : List Char) : covers (parse p) s = true ↔ Matches p s := by
  induction p using pattern_induction generalizing s with
  | nil => exact covers_nil.trans matches_nil.symm
  | alone =>
    rw [matches_alone]
    change covers [.exactly ['!']] s = true ↔ _
    rw [covers_exactly]
    simp [covers_nil]
  | escaped c p ih =>
    rw [parse_escaped, covers_exactly, matches_escaped]
    exact exists_congr fun rest => and_congr_right fun _ => ih rest
  | run p ih =>
    rw [parse_run, covers_anyRun, matches_run]
    exact exists_congr fun _ => exists_congr fun rest => and_congr_right fun _ => ih rest
  | one p ih =>
    rw [parse_one, covers_oneChar, matches_one]
    exact exists_congr fun _ => exists_congr fun rest => and_congr_right fun _ => ih rest
  | ordinary c p hc ih =>
    rw [parse_ordinary hc, covers_exactly, matches_ordinary hc]
    exact exists_congr fun rest => and_congr_right fun _ => ih rest

/-! ## Escaped texts -/

theorem escapeChars_cons_of_sign {c : Char} (hc : isSign c = true) (v : List Char) :
    escapeChars (c :: v) = '!' :: c :: escapeChars v := by simp [escapeChars, hc, escapeSign]

theorem escapeChars_cons_of_ordinary {c : Char} (hc : isSign c = false) (v : List Char) :
    escapeChars (c :: v) = c :: escapeChars v := by simp [escapeChars, hc]

/-- An escaped text at the start of a pattern matches that text and nothing else. -/
theorem matches_escapeChars_append {v p s : List Char} :
    Matches (escapeChars v ++ p) s ↔ ∃ rest, s = v ++ rest ∧ Matches p rest := by
  induction v generalizing s with
  | nil => simp [escapeChars]
  | cons c v ih =>
    have hstart : Matches (escapeChars (c :: v) ++ p) s ↔
        ∃ rest, s = c :: rest ∧ Matches (escapeChars v ++ p) rest := by
      cases hc : isSign c with
      | true => exact escapeChars_cons_of_sign hc v ▸ matches_escaped
      | false => exact escapeChars_cons_of_ordinary hc v ▸ matches_ordinary hc
    rw [hstart]
    constructor
    · rintro ⟨_, rfl, hrest⟩
      obtain ⟨rest, rfl, h⟩ := ih.mp hrest
      exact ⟨rest, rfl, h⟩
    · rintro ⟨rest, rfl, h⟩
      exact ⟨v ++ rest, rfl, ih.mpr ⟨rest, rfl, h⟩⟩

theorem proper_escapeChars_append {v p : List Char} (hp : Proper p) :
    Proper (escapeChars v ++ p) := by
  induction v with
  | nil => exact hp
  | cons c v ih =>
    cases hc : isSign c with
    | true => exact escapeChars_cons_of_sign hc v ▸ .escaped hc ih
    | false => exact escapeChars_cons_of_ordinary hc v ▸ .cons (isSign_eq_false.mp hc).1 ih

theorem toList_containing (v : String) :
    (Filter.containing v).toList = '%' :: (escapeChars v.toList ++ ['%']) := by
  simp [Filter.containing, escape]

theorem proper_containing (v : String) : Proper (Filter.containing v).toList := by
  rw [toList_containing]
  exact .cons (by decide) (proper_escapeChars_append (.cons (by decide) .nil))

/-- The pattern of the texts that contain a text matches just those. -/
theorem matches_containing {v : String} {s : List Char} :
    Matches (Filter.containing v).toList s ↔ v.toList <:+: s := by
  rw [toList_containing, matches_run]
  constructor
  · rintro ⟨before, _, rfl, h⟩
    obtain ⟨after, rfl, _⟩ := matches_escapeChars_append.mp h
    exact ⟨before, after, List.append_assoc _ _ _⟩
  · rintro ⟨before, after, rfl⟩
    refine ⟨before, v.toList ++ after, List.append_assoc _ _ _, ?_⟩
    have hall : Matches ['%'] after := matches_run.mpr ⟨after, [], by simp, .nil⟩
    exact matches_escapeChars_append.mpr ⟨after, rfl, hall⟩

/-- That a final line feed may be left out makes no difference: a text without it that contains
another contains it with the line feed as well. -/
theorem accepts_containing {v : String} {s : List Char} :
    accepts (parse (Filter.containing v).toList) s = true ↔ v.toList <:+: s := by
  unfold accepts
  simp only [Bool.or_eq_true, Bool.and_eq_true, covers_parse, matches_containing]
  constructor
  · rintro (h | ⟨_, h⟩)
    · exact h
    · exact h.trans s.dropLast_prefix.isInfix
  · exact .inl

end Like

end EntityApi
