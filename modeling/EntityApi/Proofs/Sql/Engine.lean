import EntityApi.Proofs.Like
import Mathlib.Logic.Function.Basic

/-! # Database engines

What a database makes of the condition of a statement is no part of this library.
An engine stands for it (`Engine`), of which only that is taken for granted what the
language of statements says about three kinds of comparison and their conjunction
(`Engine.Standard`). That these laws can all hold is shown by an engine that reads the
text back word by word (`Engine.standard_reading`). -/
namespace EntityApi

namespace Sql

/-! ## Tests -/

/-- A comparison of a column with what placeholders stand for, as a condition's text spells it. -/
inductive Test where
  | equal (column place : String)
  | like (column place : String)
  | between (column low high : String)

/-- Letters, digits and underscores make up a name. -/
def IsName (s : String) : Prop := s ≠ "" ∧ ∀ c ∈ s.toList, c.isAlphanum = true ∨ c = '_'

theorem IsName.append {s t : String} (hs : IsName s) (ht : IsName t) : IsName (s ++ t) := by
  refine ⟨fun h => hs.1 (String.append_eq_empty_iff.mp h).1, ?_⟩
  rw [String.toList_append]
  exact List.forall_mem_append.mpr ⟨hs.2, ht.2⟩

theorem isName_toString (i : Nat) : IsName (toString i) := by
  have hdigits : (toString i).toList = Nat.toDigits 10 i := by simp
  refine ⟨fun h => Nat.toDigits_ne_nil (hdigits.symm.trans (congrArg String.toList h)), ?_⟩
  intro c hc
  have hdigit : c.isDigit = true :=
    Nat.isDigit_of_mem_toDigits (by decide) (by decide) (hdigits ▸ hc)
  exact .inl (by simp [Char.isAlphanum, hdigit])

namespace Test

def column : Test → String
  | equal column _ => column
  | like column _ => column
  | between column _ _ => column

def places : Test → List String
  | equal _ place => [place]
  | like _ place => [place]
  | between _ low high => [low, high]

def text : Test → String
  | equal column place => column ++ " = :" ++ place
  | like column place => column ++ " LIKE :" ++ place ++ " ESCAPE '!'"
  | between column low high => column ++ " BETWEEN :" ++ low ++ " AND :" ++ high

/-- The test is about one of the columns, and its placeholders are names. -/
def Over (columns : List String) (test : Test) : Prop :=
  test.column ∈ columns ∧ ∀ place ∈ test.places, IsName place

end Test

/-- The text that asks for all the tests. -/
def textOf (tests : List Test) : String := " AND ".intercalate (tests.map Test.text)

@[simp] theorem textOf_nil : textOf [] = "" := String.intercalate_nil

@[simp] theorem textOf_singleton (test : Test) : textOf [test] = test.text :=
  String.intercalate_singleton

theorem textOf_cons (first : Test) {rest : List Test} (h : rest ≠ []) :
    textOf (first :: rest) = first.text ++ " AND " ++ textOf rest :=
  String.intercalate_cons_of_ne_nil (by simpa using h)

theorem Test.text_ne_empty (test : Test) : test.text ≠ "" := by cases test <;> simp [text]

theorem textOf_ne_empty {tests : List Test} (h : tests ≠ []) : textOf tests ≠ "" := by
  cases tests with
  | nil => exact absurd rfl h
  | cons first rest =>
    by_cases hnil : rest = []
    · subst hnil
      simpa using first.text_ne_empty
    · simp [textOf_cons first hnil]

/-! ## Engines -/

/-- A database engine: the rows that a condition selects, given its text and the values that its
placeholders stand for. -/
structure Engine where
  selects : String → List (String × Value) → Row → Prop

namespace Engine

/-- The engine keeps to the language of statements in conditions on the columns: nothing is selected
by a comparison with null, values of one kind are compared as what they denote (moments as instants),
a pattern is matched with the whole text, a conjunction asks for both sides, and the empty condition
for nothing. -/
structure Standard (e : Engine) (columns : List String) : Prop where
  empty : ∀ params row, e.selects "" params row
  conjunction : ∀ (first : Test) (rest : List Test), first.Over columns →
    (∀ test ∈ rest, test.Over columns) → rest ≠ [] →
    ∀ params row, e.selects (first.text ++ " AND " ++ textOf rest) params row ↔
      e.selects first.text params row ∧ e.selects (textOf rest) params row
  null : ∀ test : Test, test.Over columns → ∀ params row,
    Value.field row test.column = .null → ¬ e.selects test.text params row
  equalNumbers : ∀ column place, (Test.equal column place).Over columns → ∀ params row a b,
    (Value.field row column).index? = some a → Entries.get? params place = some (.int b) →
    (e.selects (Test.equal column place).text params row ↔ a = b)
  equalTexts : ∀ column place, (Test.equal column place).Over columns → ∀ params row a b,
    Value.field row column = .text a → Entries.get? params place = some (.text b) →
    (e.selects (Test.equal column place).text params row ↔ a = b)
  like : ∀ column place, (Test.like column place).Over columns → ∀ params row s pattern,
    Value.field row column = .text s → Entries.get? params place = some (.text pattern) →
    Like.Proper pattern.toList →
    (e.selects (Test.like column place).text params row ↔ Like.Matches pattern.toList s.toList)
  between : ∀ column low high, (Test.between column low high).Over columns →
    ∀ params row (m l h : Moment), Value.field row column = .moment m →
    Entries.get? params low = some (.moment l) → Entries.get? params high = some (.moment h) →
    (e.selects (Test.between column low high).text params row ↔
      l.instant ≤ m.instant ∧ m.instant ≤ h.instant)

variable {e : Engine} {columns : List String}

/-- A conjunction of any length asks for all its parts. -/
theorem Standard.selects_textOf (h : e.Standard columns) {tests : List Test}
    (hover : ∀ test ∈ tests, test.Over columns) (params : List (String × Value)) (row : Row) :
    e.selects (textOf tests) params row ↔ ∀ test ∈ tests, e.selects test.text params row := by
  induction tests with
  | nil => simpa using h.empty params row
  | cons first rest ih =>
    obtain ⟨hfirst, hrest⟩ := List.forall_mem_cons.mp hover
    by_cases hnil : rest = []
    · subst hnil
      simp
    · rw [textOf_cons first hnil, h.conjunction first rest hfirst hrest hnil, ih hrest,
        List.forall_mem_cons]

end Engine

/-! ## Reading a text back -/

namespace Test

/-- The words of a test's text, which blanks separate. -/
def words : Test → List (List Char)
  | equal column place => [column.toList, ['='], ':' :: place.toList]
  | like column place =>
    [column.toList, "LIKE".toList, ':' :: place.toList, "ESCAPE".toList, "'!'".toList]
  | between column low high =>
    [column.toList, "BETWEEN".toList, ':' :: low.toList, "AND".toList, ':' :: high.toList]

theorem words_ne_nil (test : Test) : test.words ≠ [] := by cases test <;> simp [words]

/-- The words of a test tell the test and where it ends. -/
theorem words_append_inj {a b : Test} {s t : List (List Char)}
    (h : a.words ++ s = b.words ++ t) : a = b ∧ s = t := by
  cases a <;> cases b <;> simp_all [words, String.toList_inj]

end Test

/-- The words that follow a test, if more tests come after it. -/
def wordsAfter : List Test → List (List Char)
  | [] => []
  | test :: rest => "AND".toList :: (test.words ++ wordsAfter rest)

/-- The words of the text that asks for all the tests. -/
def wordsOf : List Test → List (List Char)
  | [] => []
  | test :: rest => test.words ++ wordsAfter rest

theorem wordsOf_ne_nil {tests : List Test} (h : tests ≠ []) : wordsOf tests ≠ [] := by
  cases tests with
  | nil => exact absurd rfl h
  | cons test rest => exact List.append_ne_nil_of_left_ne_nil test.words_ne_nil _

theorem wordsAfter_injective : Function.Injective wordsAfter := by
  intro a
  induction a with
  | nil =>
    intro b h
    cases b with
    | nil => rfl
    | cons => cases h
  | cons test rest ih =>
    intro b h
    cases b with
    | nil => cases h
    | cons test' rest' =>
      obtain ⟨rfl, hrest⟩ := Test.words_append_inj (List.cons.inj h).2
      rw [ih hrest]

theorem wordsOf_injective : Function.Injective wordsOf := by
  intro a b h
  cases a with
  | nil =>
    by_contra hb
    exact wordsOf_ne_nil (Ne.symm hb) h.symm
  | cons test rest =>
    cases b with
    | nil => exact absurd h (wordsOf_ne_nil (List.cons_ne_nil _ _))
    | cons test' rest' =>
      obtain ⟨rfl, hrest⟩ := Test.words_append_inj h
      rw [wordsAfter_injective hrest]

theorem toList_textOf (tests : List Test) :
    (textOf tests).toList = [' '].intercalate (wordsOf tests) := by
  cases tests with
  | nil => rfl
  | cons first rest =>
    induction rest generalizing first with
    | nil =>
      cases first <;>
        simp [wordsOf, wordsAfter, Test.words, Test.text, List.intercalate_cons_of_ne_nil]
    | cons second rest ih =>
      have hwords := wordsOf_ne_nil (List.cons_ne_nil second rest)
      have hsplit : wordsOf (first :: second :: rest) =
          first.words ++ "AND".toList :: wordsOf (second :: rest) := rfl
      rw [textOf_cons first (List.cons_ne_nil _ _), hsplit, String.toList_append, ih]
      cases first <;>
        simp [Test.words, Test.text, List.intercalate_cons_of_ne_nil, hwords]

theorem IsName.no_blank {s : String} (h : IsName s) : ' ' ∉ s.toList := by
  intro hmem
  rcases h.2 ' ' hmem with hblank | hblank
  · exact absurd hblank (by decide)
  · exact absurd hblank (by decide)

section

variable {columns : List String} (hcolumns : ∀ column ∈ columns, IsName column)

include hcolumns

theorem Test.Over.no_blank {test : Test} (h : test.Over columns) :
    ∀ word ∈ test.words, ' ' ∉ word := by
  have hcolumn := (hcolumns _ h.1).no_blank
  have hplaces : ∀ place ∈ test.places, ' ' ∉ place.toList := fun place hplace =>
    (h.2 place hplace).no_blank
  cases test <;> simp_all [Test.words, Test.column, Test.places]

theorem no_blank_wordsAfter {tests : List Test} (h : ∀ test ∈ tests, test.Over columns) :
    ∀ word ∈ wordsAfter tests, ' ' ∉ word := by
  induction tests with
  | nil => exact nofun
  | cons test rest ih =>
    obtain ⟨htest, hrest⟩ := List.forall_mem_cons.mp h
    exact List.forall_mem_cons.mpr ⟨by decide,
      List.forall_mem_append.mpr ⟨htest.no_blank hcolumns, ih hrest⟩⟩

theorem no_blank_wordsOf {tests : List Test} (h : ∀ test ∈ tests, test.Over columns) :
    ∀ word ∈ wordsOf tests, ' ' ∉ word := by
  cases tests with
  | nil => exact nofun
  | cons test rest =>
    obtain ⟨htest, hrest⟩ := List.forall_mem_cons.mp h
    exact List.forall_mem_append.mpr ⟨htest.no_blank hcolumns, no_blank_wordsAfter hcolumns hrest⟩

theorem splitOn_textOf {tests : List Test} (h : ∀ test ∈ tests, test.Over columns)
    (hne : tests ≠ []) : (textOf tests).toList.splitOn ' ' = wordsOf tests := by
  rw [toList_textOf]
  exact List.splitOn_intercalate ' ' (no_blank_wordsOf hcolumns h) (wordsOf_ne_nil hne)

/-- A text asks for one series of tests only. -/
theorem textOf_inj {a b : List Test} (ha : ∀ test ∈ a, test.Over columns)
    (hb : ∀ test ∈ b, test.Over columns) (h : textOf a = textOf b) : a = b := by
  by_cases hnil : a = []
  · subst hnil
    by_contra hne
    exact textOf_ne_empty (Ne.symm hne) h.symm
  · have hnil' : b ≠ [] := by
      rintro rfl
      exact textOf_ne_empty hnil h
    refine wordsOf_injective ?_
    rw [← splitOn_textOf hcolumns ha hnil, ← splitOn_textOf hcolumns hb hnil', h]

end

/-! ## An engine that reads texts -/

namespace Test

/-- What the values of a column and of its placeholders are compared for. -/
def Met (params : List (String × Value)) (row : Row) : Test → Prop
  | equal column place =>
    match Value.field row column, Entries.get? params place with
    | .text a, some (.text b) => a = b
    | v, some w => ∃ n, v.index? = some n ∧ w.index? = some n
    | _, none => False
  | like column place =>
    match Value.field row column, Entries.get? params place with
    | .text s, some (.text pattern) => Like.Matches pattern.toList s.toList
    | _, _ => False
  | between column low high =>
    match Value.field row column, Entries.get? params low, Entries.get? params high with
    | .moment m, some (.moment l), some (.moment h) => l.instant ≤ m.instant ∧ m.instant ≤ h.instant
    | _, _, _ => False

end Test

namespace Engine

/-- The engine that takes a text for the tests that it asks for, and has them all met. -/
def reading (columns : List String) : Engine where
  selects sql params row := ∃ tests : List Test, (∀ test ∈ tests, test.Over columns) ∧
    sql = textOf tests ∧ ∀ test ∈ tests, test.Met params row

variable {columns : List String} (hcolumns : ∀ column ∈ columns, IsName column)

include hcolumns

theorem selects_reading {tests : List Test} (h : ∀ test ∈ tests, test.Over columns)
    (params : List (String × Value)) (row : Row) :
    (reading columns).selects (textOf tests) params row ↔ ∀ test ∈ tests, test.Met params row := by
  constructor
  · rintro ⟨tests', hover, htext, hmet⟩
    exact textOf_inj hcolumns h hover htext ▸ hmet
  · exact fun hmet => ⟨tests, h, rfl, hmet⟩

theorem selects_reading_test {test : Test} (h : test.Over columns)
    (params : List (String × Value)) (row : Row) :
    (reading columns).selects test.text params row ↔ test.Met params row := by
  have := selects_reading hcolumns (List.forall_mem_singleton.mpr h) params row
  rwa [textOf_singleton, List.forall_mem_singleton] at this

theorem standard_reading : (reading columns).Standard columns where
  empty params row := ⟨[], nofun, rfl, nofun⟩
  conjunction first rest hfirst hrest hnil params row := by
    have hall := selects_reading hcolumns (List.forall_mem_cons.mpr ⟨hfirst, hrest⟩) params row
    rw [textOf_cons first hnil, List.forall_mem_cons] at hall
    rw [hall, selects_reading_test hcolumns hfirst, selects_reading hcolumns hrest]
  null test h params row hnull := by
    rw [selects_reading_test hcolumns h]
    cases test with
    | equal column place =>
      simp only [Test.Met, show Value.field row column = .null from hnull]
      cases Entries.get? params place <;> simp [Value.index?]
    | like => simp_all [Test.Met, Test.column]
    | between => simp_all [Test.Met, Test.column]
  equalNumbers column place h params row a b ha hb := by
    rw [selects_reading_test hcolumns h]
    simp only [Test.Met, hb]
    cases hv : Value.field row column <;> simp_all [Value.index?] <;> exact eq_comm
  equalTexts column place h params row a b ha hb := by
    rw [selects_reading_test hcolumns h]
    simp [Test.Met, ha, hb]
  like column place h params row s pattern hs hpattern _ := by
    rw [selects_reading_test hcolumns h]
    simp [Test.Met, hs, hpattern]
  between column low high h params row m l u hm hl hu := by
    rw [selects_reading_test hcolumns h]
    simp [Test.Met, hm, hl, hu]

end Engine

end Sql

end EntityApi
