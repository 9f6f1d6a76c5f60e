import EntityApi.Entity.Declaration
import EntityApi.Proofs.Results
import EntityApi.Proofs.Tables

/-! # Spellings of a declaration

What can be spelled in several ways is read the same in each of them: a type
alone or as the only option, an option under any of its names, the attributes
under either of their names (`Attribute.Respelled`, `Entity.Respelled`). Each is
one change at one place, while no other spelling of the same thing is around;
whatever else a declaration holds may be of any kind, also such that the
declaration is refused. Then it is refused for the same cause. -/
namespace EntityApi

variable {before after : List (Value × Value)} {names : List String} {a b n : String}

theorem text_beq_of_ne (h : a ≠ b) : (Value.text a == Value.text b) = false := by
  rw [Value.beq_text, beq_eq_false_iff_ne]
  exact h

/-- An option is none of those that are looked for. -/
theorem firstOf?_insert_of_not_mem (v : Value) (h : a ∉ names) :
    firstOf? (before ++ (.text a, v) :: after) names = firstOf? (before ++ after) names := by
  unfold firstOf?
  induction names with
  | nil => rfl
  | cons n names ih =>
    rw [List.mem_cons, not_or] at h
    obtain ⟨hn, hnames⟩ := h
    rw [List.findSome?_cons, List.findSome?_cons, ih hnames,
      Entries.get?_insert_of_ne v (text_beq_of_ne hn)]

theorem firstOf?_nil (names : List String) : firstOf? [] names = none := by
  simp [firstOf?]

/-- An option is the only one of those that are looked for. -/
theorem firstOf?_insert_of_mem (v : Value) (h : a ∈ names)
    (halone : ∀ n ∈ names, Entries.get? (before ++ after) (.text n) = none) :
    firstOf? (before ++ (.text a, v) :: after) names = some v := by
  unfold firstOf?
  induction names with
  | nil => cases h
  | cons n names ih =>
    obtain ⟨hn, hnames⟩ := List.forall_mem_cons.mp halone
    rw [List.findSome?_cons]
    by_cases heq : a = n
    · subst heq
      rw [Entries.get?_insert_of_none v (by simp) hn]
    · rw [Entries.get?_insert_of_ne v (text_beq_of_ne heq), hn]
      exact ih ((List.mem_cons.mp h).resolve_left heq) hnames

namespace Attribute

/-- The options that have several names, each by these. -/
def optionNames : List (List String) :=
  [primaryKeyNames, allowNullNames, defaultNames, autoIncrementNames]

/-- The attributes are spelled in two ways that differ at one place. -/
inductive Respelled : Value → Value → Prop
  /-- A type as the only option is the type alone. -/
  | bare (type : String) : Respelled (.map [(.text "type", .text type)]) (.text type)
  /-- An option that is there under one of its names only may have any of them. -/
  | option {names : List String} {a b : String} {before after : List (Value × Value)} (v : Value)
      (hnames : names ∈ optionNames) (ha : a ∈ names) (hb : b ∈ names)
      (halone : ∀ n ∈ names, Entries.get? (before ++ after) (.text n) = none) :
      Respelled (.map (before ++ (.text a, v) :: after)) (.map (before ++ (.text b, v) :: after))

/-- Different options have no name in common, and none is the type. -/
theorem optionNames_apart : ∀ names ∈ optionNames, "type" ∉ names ∧
    ∀ others ∈ optionNames, names = others ∨ ∀ n ∈ names, n ∉ others := by
  decide

theorem firstOf?_respelled {others : List String} (v : Value) (hnames : names ∈ optionNames)
    (ha : a ∈ names) (hb : b ∈ names) (hothers : others ∈ optionNames)
    (halone : ∀ n ∈ names, Entries.get? (before ++ after) (.text n) = none) :
    firstOf? (before ++ (.text a, v) :: after) others =
      firstOf? (before ++ (.text b, v) :: after) others := by
  rcases (optionNames_apart names hnames).2 others hothers with rfl | hapart
  · rw [firstOf?_insert_of_mem v ha halone, firstOf?_insert_of_mem v hb halone]
  · rw [firstOf?_insert_of_not_mem v (hapart a ha), firstOf?_insert_of_not_mem v (hapart b hb)]

theorem type_of_option (v : Value) (hnames : names ∈ optionNames) (ha : a ∈ names) :
    Entries.get? (before ++ (.text a, v) :: after) (.text "type") =
      Entries.get? (before ++ after) (.text "type") := by
  have hne : a ≠ "type" := fun heq => (optionNames_apart names hnames).1 (heq ▸ ha)
  exact Entries.get?_insert_of_ne v (text_beq_of_ne hne)

theorem Respelled.ofDeclaration_eq {spec other : Value} (h : Respelled spec other) :
    ofDeclaration spec = ofDeclaration other := by
  cases h with
  | bare type =>
    have hnone : ∀ names ∈ optionNames, firstOf? [(.text "type", .text type)] names = none := by
      intro names hnames
      have htype : firstOf? ([] ++ (.text "type", .text type) :: []) names = firstOf? ([] ++ []) names :=
        firstOf?_insert_of_not_mem _ (optionNames_apart names hnames).1
      rw [List.nil_append, List.nil_append, firstOf?_nil] at htype
      exact htype
    unfold ofDeclaration flag
    dsimp only
    rw [hnone primaryKeyNames (by decide), hnone allowNullNames (by decide),
      hnone defaultNames (by decide), hnone autoIncrementNames (by decide)]
    simp [Entries.get?, Value.text?]
  | option v hnames ha hb halone =>
    have hfirst : ∀ others ∈ optionNames, firstOf? _ others = firstOf? _ others :=
      fun _ hothers => firstOf?_respelled v hnames ha hb hothers halone
    unfold ofDeclaration flag
    dsimp only
    rw [type_of_option v hnames ha, type_of_option v hnames hb, hfirst primaryKeyNames (by decide),
      hfirst allowNullNames (by decide), hfirst defaultNames (by decide),
      hfirst autoIncrementNames (by decide)]

end Attribute

namespace Entity

/-- The names that attributes are declared under. -/
def attributesKeys : List String := ["attributes", "columns"]

/-- The declarations are spelled in two ways that differ at one place. -/
inductive Respelled : Value → Value → Prop
  /-- One attribute is respelled. -/
  | attr {key : String} {before after attrs others : List (Value × Value)} {spec other : Value}
      (name : Value) (hkey : key ∈ attributesKeys) (hspec : Attribute.Respelled spec other) :
      Respelled
        (.map (before ++ (.text key, .map (attrs ++ (name, spec) :: others)) :: after))
        (.map (before ++ (.text key, .map (attrs ++ (name, other) :: others)) :: after))
  /-- What is there under one name for attributes only may be there under the other. -/
  | key {a b : String} {before after : List (Value × Value)} (v : Value) (ha : a ∈ attributesKeys)
      (hb : b ∈ attributesKeys)
      (halone : ∀ k ∈ attributesKeys, Entries.get? (before ++ after) (.text k) = none) :
      Respelled (.map (before ++ (.text a, v) :: after)) (.map (before ++ (.text b, v) :: after))

/-- Attributes that are read alike. -/
inductive ReadAlike : Value → Value → Prop
  | refl (v : Value) : ReadAlike v v
  | map {entries others : List (Value × Value)}
      (h : List.Forall₂ (fun e f => e.1 = f.1 ∧
        Attribute.ofDeclaration e.2 = Attribute.ofDeclaration f.2) entries others) :
      ReadAlike (.map entries) (.map others)

theorem readAttributes_congr {entries others : List (Value × Value)}
    (h : List.Forall₂ (fun e f => e.1 = f.1 ∧
      Attribute.ofDeclaration e.2 = Attribute.ofDeclaration f.2) entries others) (entity : Value)
    (read : List (String × Attribute)) :
    readAttributes entity entries read = readAttributes entity others read := by
  induction h generalizing read with
  | nil => rfl
  | @cons e f _ _ hef _ ih =>
    obtain ⟨name, spec⟩ := e
    obtain ⟨_, other⟩ := f
    obtain ⟨rfl, hspec⟩ := hef
    simp only [readAttributes, hspec, ih]

theorem ReadAlike.truthy_eq {v w : Value} (h : ReadAlike v w) : v.truthy = w.truthy := by
  cases h with
  | refl => rfl
  | map h => cases h <;> rfl

/-- Declarations with the same table and attributes that are read alike are read alike. -/
theorem ofDeclaration_congr {fields others : List (Value × Value)} (name : Value)
    (htable : Value.field fields "table" = Value.field others "table")
    (hattributes : ReadAlike (attributesOf fields) (attributesOf others)) :
    ofDeclaration name (.map fields) = ofDeclaration name (.map others) := by
  unfold ofDeclaration
  dsimp only
  rw [htable]
  generalize attributesOf fields = v at hattributes
  generalize attributesOf others = w at hattributes
  cases hattributes with
  | refl => rfl
  | map h =>
    dsimp only
    rw [readAttributes_congr h]

theorem attributesOf_alike {fields others : List (Value × Value)}
    (h : ∀ k ∈ attributesKeys, ReadAlike (Value.field fields k) (Value.field others k)) :
    ReadAlike (attributesOf fields) (attributesOf others) := by
  have hfirst := h "attributes" (by decide)
  have hsecond := h "columns" (by decide)
  unfold attributesOf
  dsimp only
  rw [hfirst.truthy_eq, hsecond.truthy_eq]
  split
  · exact hfirst
  · split
    · exact hsecond
    · exact .refl _

theorem field_insert_of_ne {key k : String} (v : Value) (h : key ≠ k) :
    Value.field (before ++ (.text key, v) :: after) k = Value.field (before ++ after) k := by
  unfold Value.field Value.lookup
  rw [Entries.get?_insert_of_ne v (text_beq_of_ne h)]

theorem field_replace_alike {v w : Value} (h : ReadAlike v w) (key k : String) :
    ReadAlike (Value.field (before ++ (.text key, v) :: after) k)
      (Value.field (before ++ (.text key, w) :: after) k) := by
  unfold Value.field Value.lookup
  rcases Entries.get?_replace before after (.text key) (.text k) v w with hsame | ⟨hv, hw⟩
  · rw [hsame]
    exact .refl _
  · rw [hv, hw]
    exact h

/-- Attributes under the only one of their names are those, unless they count as absent. -/
theorem attributesOf_insert {key : String} (v : Value) (hkey : key ∈ attributesKeys)
    (halone : ∀ k ∈ attributesKeys, Entries.get? (before ++ after) (.text k) = none) :
    attributesOf (before ++ (.text key, v) :: after) = if v.truthy then v else .map [] := by
  have hfield : ∀ k ∈ attributesKeys,
      Value.field (before ++ (.text key, v) :: after) k = if key = k then v else .null := by
    intro k hk
    unfold Value.field Value.lookup
    split
    · rename_i heq
      subst heq
      rw [Entries.get?_insert_of_none v (by simp) (halone _ hk)]
      rfl
    · rename_i hne
      rw [Entries.get?_insert_of_ne v (text_beq_of_ne hne), halone k hk]
      rfl
  unfold attributesOf
  rw [hfield "attributes" (by decide), hfield "columns" (by decide)]
  simp only [attributesKeys, List.mem_cons, List.not_mem_nil, or_false] at hkey
  have hnull : Value.null.truthy = false := rfl
  rcases hkey with rfl | rfl <;> simp [hnull]

theorem attributesKeys_apart : ∀ key ∈ attributesKeys, key ≠ "table" ∧ key ≠ "name" := by decide

theorem Respelled.ofDeclaration_eq {spec other : Value} (h : Respelled spec other) (name : Value) :
    ofDeclaration name spec = ofDeclaration name other := by
  cases h with
  | @attr key before after attrs others spec other name hkey hspec =>
    have hread : ReadAlike (.map (attrs ++ (name, spec) :: others))
        (.map (attrs ++ (name, other) :: others)) :=
      .map (Result.forall₂_replace (fun _ => ⟨rfl, rfl⟩) ⟨rfl, hspec.ofDeclaration_eq⟩ attrs others)
    have hne := (attributesKeys_apart key hkey).1
    refine ofDeclaration_congr _ ?_ (attributesOf_alike fun k _ => field_replace_alike hread key k)
    rw [field_insert_of_ne _ hne, field_insert_of_ne _ hne]
  | key v ha hb halone =>
    refine ofDeclaration_congr name ?_ ?_
    · rw [field_insert_of_ne v (attributesKeys_apart _ ha).1,
        field_insert_of_ne v (attributesKeys_apart _ hb).1]
    · rw [attributesOf_insert v ha halone, attributesOf_insert v hb halone]
      exact .refl _

end Entity

end EntityApi
