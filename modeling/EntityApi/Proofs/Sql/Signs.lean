import EntityApi.Proofs.Sql.Engine
import EntityApi.Proofs.Tables
import EntityApi.Sql.Statement

/-! # Statements cut into signs

A statement is a series of characters, but the names of its table and of columns
stand in it as they are, so each of these counts as one sign (`Sign`). In what is
left a placeholder is a colon with the longest name after it (`Sign.parsed`). A
statement is closed (`Statement.ClosedAs`) if the placeholders that are read in
this way are just its parameters, and it is then fixed how the statement reads with
the values in their places. Statements are put together from pieces, and that
property with them: a piece is followed by its text, its parameters and the way in
which it is read (`Cut`), and pieces can be joined (`Cut.append`, `Cut.listed`). -/
namespace EntityApi

namespace Sql

/-! ## Signs -/

/-- A sign of a statement: a character, a name of the table or of a column, which is one sign however
it is spelled, or the place of a parameter, with what is known of the parameter. -/
inductive Sign (β : Type) where
  | char (c : Char)
  | name (s : String)
  | place (b : β)

namespace Sign

variable {β γ : Type}

def map (f : β → γ) : Sign β → Sign γ
  | char c => char c
  | name s => name s
  | place b => place (f b)

/-- What stands in the place, if the sign is one. -/
def placed? : Sign β → Option β
  | place b => some b
  | _ => none

/-- Fixed text. -/
def said (s : String) : List (Sign β) := s.toList.map char

/-- Items with a text between each two of them. -/
def listed (separator : String) (items : List (List (Sign β))) : List (Sign β) :=
  (said separator).intercalate items

/-- Signs after their lead, or nothing if there are none. -/
def led (lead : String) (signs : List (Sign β)) : List (Sign β) :=
  if signs.isEmpty then [] else said lead ++ signs

def letters : Sign Empty → List Char
  | char c => [c]
  | name s => s.toList

def textOf (signs : List (Sign Empty)) : String := String.ofList (signs.flatMap letters)

/-- A character that may stand in the name of a placeholder. -/
def isPlaceChar (c : Char) : Bool := c.isAlphanum || c == '_'

/-- The characters that the signs begin with, as far as they could belong to the name of a
placeholder, and what comes after these, with its placeholders. -/
def scan : List (Sign Empty) → List Char × List (Sign String)
  | [] => ([], [])
  | name s :: rest =>
    let (run, after) := scan rest
    ([], name s :: (run.map char ++ after))
  | char c :: rest =>
    let (run, after) := scan rest
    if c == ':' then ([], place (String.ofList run) :: after)
    else if isPlaceChar c then (c :: run, after)
    else ([], char c :: (run.map char ++ after))

/-- The signs, with a placeholder for each colon and the longest name that comes after it. -/
def parsed (signs : List (Sign Empty)) : List (Sign String) :=
  (scan signs).1.map char ++ (scan signs).2

/-- A placeholder is written as a colon and its name. -/
def spell : Sign String → List (Sign Empty)
  | char c => [char c]
  | name s => [name s]
  | place p => char ':' :: said p

end Sign

/-- The placeholders in the text of the statement have distinct names, which are those of its
parameters; with the value of its own parameter in each place, the statement reads as given. -/
def Statement.ClosedAs (statement : Statement) (reading : List (Sign Value)) : Prop :=
  ∃ signs : List (Sign Empty), Sign.textOf signs = statement.sql ∧
    (Sign.parsed signs).filterMap Sign.placed? = Entries.keys statement.params ∧
    (Entries.keys statement.params).Nodup ∧
    (Sign.parsed signs).map (Sign.map (Entries.get? statement.params)) =
      reading.map (Sign.map some)

namespace Sign

/-! ## Texts of signs -/

section

variable {β γ : Type}

@[simp] theorem said_empty : (said "" : List (Sign β)) = [] := rfl

@[simp] theorem map_said (f : β → γ) (s : String) : (said s).map (map f) = said s := by
  simp [said, Function.comp_def, map]

theorem placed_said (s : String) : (said s : List (Sign β)).filterMap placed? = [] := by
  rw [List.filterMap_eq_nil_iff]
  intro sign hsign
  obtain ⟨c, _, rfl⟩ := List.mem_map.mp hsign
  rfl

@[simp] theorem listed_nil (separator : String) :
    (listed separator [] : List (Sign β)) = [] := rfl

@[simp] theorem listed_singleton (separator : String) (item : List (Sign β)) :
    listed separator [item] = item := by simp [listed]

@[simp] theorem listed_cons_cons (separator : String) (item next : List (Sign β))
    (rest : List (List (Sign β))) : listed separator (item :: next :: rest) =
      item ++ said separator ++ listed separator (next :: rest) := by simp [listed]

theorem mem_listed_head {sign : Sign β} {item : List (Sign β)} (h : sign ∈ item)
    (separator : String) (rest : List (List (Sign β))) : sign ∈ listed separator (item :: rest) := by
  cases rest with
  | nil => simpa using h
  | cons next rest => simp [h]

@[simp] theorem map_listed (f : β → γ) (separator : String) (items : List (List (Sign β))) :
    (listed separator items).map (map f) = listed separator (items.map (List.map (map f))) := by
  induction items with
  | nil => rfl
  | cons item rest ih =>
    cases rest with
    | nil => simp
    | cons next rest =>
      rw [listed_cons_cons, List.map_append, List.map_append, map_said, ih]
      simp only [List.map_cons, listed_cons_cons]

@[simp] theorem map_led (f : β → γ) (lead : String) (signs : List (Sign β)) :
    (led lead signs).map (map f) = led lead (signs.map (map f)) := by
  cases signs <;> simp [led]

end

theorem textOf_append (a b : List (Sign Empty)) : textOf (a ++ b) = textOf a ++ textOf b := by
  rw [textOf, List.flatMap_append, String.ofList_append]
  rfl

theorem textOf_said (s : String) : textOf (said s) = s := by
  have hletters : (said s).flatMap letters = s.toList := by
    rw [said, List.flatMap_map]
    exact List.flatMap_singleton' _
  rw [textOf, hletters, String.ofList_toList]

theorem spell_said (s : String) : (said s).flatMap spell = said s := by
  rw [said, List.flatMap_map]
  exact List.map_eq_flatMap.symm

/-! ## Reading placeholders -/

section

variable {rest : List (Sign Empty)} {after : List (Sign String)}

theorem scan_run {s : List Char} (h : ∀ c ∈ s, isPlaceChar c = true)
    (hrest : scan rest = ([], after)) : scan (s.map char ++ rest) = (s, after) := by
  induction s with
  | nil => exact hrest
  | cons c s ih =>
    obtain ⟨hc, hs⟩ := List.forall_mem_cons.mp h
    have hcolon : (c == ':') = false := by
      rw [beq_eq_false_iff_ne]
      rintro rfl
      cases hc
    simp only [List.map_cons, List.cons_append, scan, ih hs, hcolon, hc]
    rfl

theorem scan_char {c : Char} (hc : isPlaceChar c = false) (hcolon : c ≠ ':')
    (signs : List (Sign Empty)) : scan (char c :: signs) = ([], char c :: parsed signs) := by
  have hcolon : (c == ':') = false := beq_eq_false_iff_ne.mpr hcolon
  rw [scan, hcolon, hc]
  rfl

/-- Characters of which none is a colon make no placeholder. -/
theorem parsed_chars {s : List Char} (h : ':' ∉ s) (signs : List (Sign Empty)) :
    parsed (s.map char ++ signs) = s.map char ++ parsed signs := by
  induction s with
  | nil => rfl
  | cons c s ih =>
    obtain ⟨hc, hs⟩ := not_or.mp (List.mem_cons.not.mp h)
    have hcolon : (c == ':') = false := beq_eq_false_iff_ne.mpr (Ne.symm hc)
    have hstep : parsed (char c :: (s.map char ++ signs)) =
        char c :: parsed (s.map char ++ signs) := by
      unfold parsed
      rw [scan, hcolon]
      cases isPlaceChar c <;> rfl
    simp only [List.map_cons, List.cons_append, hstep, ih hs]

end

/-! ## Pieces of a statement -/

/-- A text without a colon that does not begin as if it went on with the name of a placeholder. -/
def Fixed (s : String) : Prop :=
  ':' ∉ s.toList ∧ s.toList.head?.any isPlaceChar = false

instance (s : String) : Decidable (Fixed s) := inferInstanceAs (Decidable (_ ∧ _))

/-- A piece of a statement, with its parameters, is cut into signs: these spell its text and have its
parameters in their places, in order. The placeholders are read as they were written, if no character
follows that could belong to a name. -/
structure Cut (text : String) (params : List (String × Value))
    (signs : List (Sign (String × Value))) : Prop where
  spelled : textOf ((signs.map (map Prod.fst)).flatMap spell) = text
  placed : signs.filterMap placed? = params
  scanned : ∀ {rest after}, scan rest = ([], after) →
    scan ((signs.map (map Prod.fst)).flatMap spell ++ rest) =
      ([], signs.map (map Prod.fst) ++ after)

namespace Cut

variable {s t : String} {a b : List (String × Value)} {P Q : List (Sign (String × Value))}

theorem of_eq (h : Cut s a P) (hs : s = t) (ha : a = b) : Cut t b P := hs ▸ ha ▸ h

theorem empty : Cut "" [] [] := ⟨rfl, rfl, fun h => h⟩

theorem append (hP : Cut s a P) (hQ : Cut t b Q) : Cut (s ++ t) (a ++ b) (P ++ Q) where
  spelled := by rw [List.map_append, List.flatMap_append, textOf_append, hP.spelled, hQ.spelled]
  placed := by rw [List.filterMap_append, hP.placed, hQ.placed]
  scanned h := by
    rw [List.map_append, List.flatMap_append, List.append_assoc, hP.scanned (hQ.scanned h),
      List.append_assoc]

theorem said (s : String) (hs : Fixed s) : Cut s [] (said s) where
  spelled := by rw [map_said, spell_said, textOf_said]
  placed := placed_said s
  scanned {rest after} h := by
    obtain ⟨hcolon, hstart⟩ := hs
    have hrest : parsed rest = after := by rw [parsed, h, List.map_nil, List.nil_append]
    rw [map_said, spell_said]
    unfold Sign.said
    cases hs : s.toList with
    | nil => exact h
    | cons c cs =>
      obtain ⟨hne, hcs⟩ := not_or.mp (List.mem_cons.not.mp (hs ▸ hcolon))
      have hc : isPlaceChar c = false := by simpa [hs] using hstart
      rw [List.map_cons, List.cons_append, scan_char hc (Ne.symm hne), parsed_chars hcs, hrest]
      rfl

theorem name (s : String) : Cut s [] [name s] where
  spelled := by simp [Sign.map, spell, textOf, letters]
  placed := rfl
  scanned h := by simp [Sign.map, spell, scan, h]

theorem place {p : String} (hp : IsName p) (v : Value) :
    Cut (":" ++ p) [(p, v)] [place (p, v)] where
  spelled := by
    have hsaid : ([Sign.place (p, v)].map (Sign.map Prod.fst)).flatMap spell =
        Sign.said (":" ++ p) := by simp [Sign.map, spell, Sign.said]
    rw [hsaid, textOf_said]
  placed := rfl
  scanned {rest after} h := by
    have hname : ∀ c ∈ p.toList, isPlaceChar c = true := fun c hc => by
      simpa [isPlaceChar] using hp.2 c hc
    simp [Sign.map, spell, Sign.said, scan, scan_run hname h]

section

variable {separator : String} (hseparator : Fixed separator) {ι : Type} {text : ι → String}
  {params : ι → List (String × Value)} {signs : ι → List (Sign (String × Value))} {items : List ι}

include hseparator

theorem listed (h : ∀ i ∈ items, Cut (text i) (params i) (signs i)) :
    Cut (separator.intercalate (items.map text)) (items.flatMap params)
      (listed separator (items.map signs)) := by
  induction items with
  | nil => exact empty
  | cons item rest ih =>
    obtain ⟨hitem, hrest⟩ := List.forall_mem_cons.mp h
    cases rest with
    | nil => simpa using hitem
    | cons next rest =>
      have hmore := (hitem.append (said separator hseparator)).append (ih hrest)
      simpa [String.intercalate_cons_of_ne_nil] using hmore

/-- Pieces without parameters. -/
theorem listed_plain (h : ∀ i ∈ items, Cut (text i) [] (signs i)) :
    Cut (separator.intercalate (items.map text)) [] (Sign.listed separator (items.map signs)) :=
  (listed hseparator h).of_eq rfl (List.flatMap_eq_nil_iff.mpr fun _ _ => rfl)

/-- Pieces with one parameter each. -/
theorem listed_single {param : ι → String × Value}
    (h : ∀ i ∈ items, Cut (text i) [param i] (signs i)) :
    Cut (separator.intercalate (items.map text)) (items.map param)
      (Sign.listed separator (items.map signs)) :=
  (listed hseparator h).of_eq rfl List.map_eq_flatMap.symm

end

theorem ne_empty {c : Char} (h : Cut s a P) (hc : char c ∈ P) : s ≠ "" := by
  have hmem : c ∈ s.toList := by
    rw [← h.spelled, textOf, String.toList_ofList]
    refine List.mem_flatMap.mpr ⟨char c, List.mem_flatMap.mpr ⟨char c, ?_, List.mem_cons_self⟩,
      List.mem_cons_self⟩
    exact List.mem_map.mpr ⟨char c, hc, rfl⟩
  rintro rfl
  cases hmem

/-- A piece after its lead. Without a character in it there must be no piece. -/
theorem suffix {lead : String} (hlead : Fixed lead) (h : Cut s a P)
    (hsaid : P = [] ∨ ∃ c, char c ∈ P) : Cut (Table.suffix lead s) a (led lead P) := by
  rcases hsaid with rfl | ⟨c, hc⟩
  · obtain rfl : s = "" := h.spelled.symm
    exact h
  · have hs : s.isEmpty = false := by simpa using h.ne_empty hc
    have hP : P.isEmpty = false := by simpa using List.ne_nil_of_mem hc
    rw [Table.suffix, hs, led, hP]
    exact (said lead hlead).append h

end Cut

/-- A statement that consists of pieces is closed, if no two of its parameters have one name. -/
theorem closedAs_of_cut (first : String) (hfirst : ':' ∉ first.toList) {sql : String}
    {params : List (String × Value)} {signs : List (Sign (String × Value))}
    (hcut : Cut sql params signs) (hnodup : (Entries.keys params).Nodup) :
    Statement.ClosedAs ⟨first ++ sql, params⟩ (said first ++ signs.map (map Prod.snd)) := by
  have hparsed : parsed (said first ++ (signs.map (map Prod.fst)).flatMap spell) =
      said first ++ signs.map (map Prod.fst) := by
    have hend : scan [] = ([], []) := rfl
    have hscan := hcut.scanned hend
    rw [List.append_nil, List.append_nil] at hscan
    rw [said, parsed_chars hfirst, parsed, hscan]
    rfl
  refine ⟨said first ++ (signs.map (map Prod.fst)).flatMap spell, ?_, ?_, hnodup, ?_⟩
  · rw [textOf_append, textOf_said, hcut.spelled]
  · have hplaced : ∀ sign : Sign (String × Value),
        placed? (map Prod.fst sign) = (placed? sign).map Prod.fst := fun sign => by
      cases sign <;> rfl
    rw [hparsed, List.filterMap_append, placed_said, List.nil_append, ← hcut.placed,
      Entries.keys, List.filterMap_map, List.map_filterMap]
    exact List.filterMap_congr fun sign _ => hplaced sign
  · rw [hparsed, List.map_append, List.map_append, map_said, map_said, List.map_map, List.map_map]
    refine congrArg (said first ++ ·) (List.map_congr_left fun sign hsign => ?_)
    cases sign with
    | char c => rfl
    | name s => rfl
    | place binding =>
      have hmem : binding ∈ params := hcut.placed ▸ List.mem_filterMap.mpr ⟨_, hsign, rfl⟩
      exact congrArg Sign.place ((Entries.get?_eq_some_iff hnodup).mpr hmem)

end Sign

end Sql

end EntityApi
