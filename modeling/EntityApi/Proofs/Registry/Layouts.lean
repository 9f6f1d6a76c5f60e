import EntityApi.Proofs.Registry.Spellings
import EntityApi.Registry
import Mathlib.Logic.Relation

/-! # Layouts of a registry

The declarations of a file may be laid out in three ways (`Layout`), of which a
list guesses two item by item. Under all of them the file declares the same, and
so it does when one of its declarations is respelled wherever it stands
(`Respelled.declared_eq`). Any number of such changes in any files of a registry
leaves what is read from it as it is, refusals included (`read_of_rewritten`). -/
namespace EntityApi.Registry

open Result (Related)

/-- What is read from the registry in a directory. -/
def read (tree : FileTree) (root : String) : Result (List Entity) := do
  (← load tree root).entities

/-- Declarations by name. -/
abbrev Declarations := List (String × List (Value × Value))

/-- How the declarations of a file are laid out. -/
inductive Layout where
  /-- A table of declarations by name. -/
  | table
  /-- A list of tables of a single declaration. -/
  | singletons
  /-- A list of declarations that name themselves. -/
  | selfNamed

def Layout.value (l : Layout) (ds : Declarations) : Value :=
  match l with
  | table => .map (ds.map fun d => (.text d.1, .map d.2))
  | singletons => .list (ds.map fun d => .map [(.text d.1, .map d.2)])
  | selfNamed => .list (ds.map fun d => .map ((.text "name", .text d.1) :: d.2))

/-- The declaration has attributes under one of their names. -/
def Keyed (spec : List (Value × Value)) : Prop :=
  ∃ key ∈ Entity.attributesKeys, Entries.has spec (.text key) = true

/-- The items of a list are spelled in two ways that differ at one place. -/
inductive ItemRespelled : Value → Value → Prop
  | declaration {fields others : List (Value × Value)} (hself : namesItself fields = true)
      (hspec : Entity.Respelled (.map fields) (.map others)) :
      ItemRespelled (.map fields) (.map others)
  | table {before after : List (Value × Value)} {spec other : Value} (name : Value)
      (hself : namesItself (before ++ (name, spec) :: after) = false)
      (hspec : Entity.Respelled spec other) :
      ItemRespelled (.map (before ++ (name, spec) :: after)) (.map (before ++ (name, other) :: after))

/-- The declarations of a file differ in their layout, or in the spelling of one of them. -/
inductive Respelled : Value → Value → Prop
  | layout {ds : Declarations} (l l' : Layout) (hkeyed : ∀ d ∈ ds, Keyed d.2) :
      Respelled (l.value ds) (l'.value ds)
  | table {before after : List (Value × Value)} {spec other : Value} (name : Value)
      (hspec : Entity.Respelled spec other) :
      Respelled (.map (before ++ (name, spec) :: after)) (.map (before ++ (name, other) :: after))
  | list {before after : List Value} {item other : Value} (hitem : ItemRespelled item other) :
      Respelled (.list (before ++ item :: after)) (.list (before ++ other :: after))

/-! ## What a file declares -/

variable {file : String} {table others : List (Value × Value)}

/-- What the table of a file declares. -/
def declared (file : String) (table : List (Value × Value)) : Result (List Entity) :=
  (declarations file table).mapM (entityOf file)

theorem declarations_of_map {entries : List (Value × Value)}
    (h : Value.field table "entities" = .map entries) :
    declarations file table = entries.map .ok := by
  unfold declarations
  rw [h]
  cases entries <;> rfl

theorem declarations_of_list {items : List Value} (h : Value.field table "entities" = .list items) :
    declarations file table = items.flatMap (declarationsOfItem file) := by
  unfold declarations
  rw [h]
  cases items <;> rfl

theorem entityOf_congr {name spec other : Value}
    (h : Entity.ofDeclaration name spec = Entity.ofDeclaration name other) :
    entityOf file (.ok (name, spec)) = entityOf file (.ok (name, other)) := by
  unfold entityOf
  dsimp only [Result.ok_bind]
  rw [h]

/-! ### Layouts -/

theorem ofDeclaration_selfNamed (name : String) (spec : List (Value × Value)) :
    Entity.ofDeclaration (.text name) (.map ((.text "name", .text name) :: spec)) =
      Entity.ofDeclaration (.text name) (.map spec) := by
  have hfield : ∀ key, "name" ≠ key → Value.field ((.text "name", .text name) :: spec) key =
      Value.field spec key :=
    fun key hne => @Entity.field_insert_of_ne [] spec "name" key (.text name) hne
  refine Entity.ofDeclaration_congr _ (hfield "table" (by decide))
    (Entity.attributesOf_alike fun k hk => ?_)
  rw [hfield k (Entity.attributesKeys_apart k hk).2.symm]
  exact .refl _

theorem namesItself_selfNamed (name : String) {spec : List (Value × Value)} (h : Keyed spec) :
    namesItself ((.text "name", .text name) :: spec) = true := by
  have hname : Entries.has ((Value.text "name", Value.text name) :: spec) (.text "name") = true := by
    simp [Entries.has, Entries.get?]
  obtain ⟨key, hkey, hhas⟩ := h
  have hother : Entries.has ((Value.text "name", Value.text name) :: spec) (.text key) = true := by
    unfold Entries.has Entries.get?
    rw [text_beq_of_ne (Entity.attributesKeys_apart key hkey).2.symm]
    exact hhas
  unfold namesItself
  simp only [Entity.attributesKeys, List.mem_cons, List.not_mem_nil, or_false] at hkey
  rcases hkey with rfl | rfl <;> simp [hname, hother]

/-- A table of a single declaration does not name itself. -/
theorem namesItself_singleton (name : String) (spec : Value) :
    namesItself [(.text name, spec)] = false := by
  simp only [namesItself, Entries.has, Entries.get?, Value.beq_text]
  by_cases h : name = "name"
  · subst h
    rfl
  · simp [h]

/-- What the declarations are read as. -/
def entitiesOf (file : String) (ds : Declarations) : Result (List Entity) :=
  ds.mapM fun d => entityOf file (.ok (.text d.1, .map d.2))

/-- A list with one item for each declaration declares these, if each item is read as its own. -/
theorem declared_of_items {ds : Declarations}
    {item spec : String × List (Value × Value) → Value}
    (h : Value.field table "entities" = .list (ds.map item))
    (hitem : ∀ d ∈ ds, declarationsOfItem file (item d) = [.ok (.text d.1, spec d)])
    (hspec : ∀ d ∈ ds, Entity.ofDeclaration (.text d.1) (spec d) =
      Entity.ofDeclaration (.text d.1) (.map d.2)) :
    declared file table = entitiesOf file ds := by
  have hdeclarations : declarations file table = ds.map fun d => .ok (.text d.1, spec d) := by
    rw [declarations_of_list h, List.flatMap_map, List.map_eq_flatMap]
    exact List.flatMap_congr hitem
  unfold declared entitiesOf
  rw [hdeclarations]
  exact Result.mapM_congr (List.forall₂_map_left_iff.mpr
    (List.forall₂_same.mpr fun d hd => entityOf_congr (hspec d hd)))

/-- Whatever the layout, the file declares the same. -/
theorem declared_layout {ds : Declarations} (hkeyed : ∀ d ∈ ds, Keyed d.2) (l : Layout)
    (h : Value.field table "entities" = l.value ds) : declared file table = entitiesOf file ds := by
  cases l with
  | table =>
    unfold declared entitiesOf
    rw [declarations_of_map h, List.map_map]
    exact Result.mapM_congr (List.forall₂_map_left_iff.mpr (List.forall₂_same.mpr fun _ _ => rfl))
  | singletons =>
    refine declared_of_items h (fun d _ => ?_) fun _ _ => rfl
    unfold declarationsOfItem
    dsimp only
    rw [namesItself_singleton]
    rfl
  | selfNamed =>
    refine declared_of_items h (fun d hd => ?_) fun d _ => ofDeclaration_selfNamed d.1 d.2
    have hname : Value.field ((.text "name", .text d.1) :: d.2) "name" = .text d.1 := by
      simp [Value.field, Value.lookup, Entries.get?]
    unfold declarationsOfItem
    dsimp only
    rw [namesItself_selfNamed d.1 (hkeyed d hd), hname]
    rfl

/-! ### Spellings -/

theorem has_insert_of_ne {before after : List (Value × Value)} {key k : String} (v : Value)
    (h : key ≠ k) : Entries.has (before ++ (.text key, v) :: after) (.text k) =
      Entries.has (before ++ after) (.text k) := by
  unfold Entries.has
  rw [Entries.get?_insert_of_ne v (text_beq_of_ne h)]

theorem has_keys_insert {before after : List (Value × Value)} {key : String} (v : Value)
    (hkey : key ∈ Entity.attributesKeys)
    (halone : ∀ k ∈ Entity.attributesKeys, Entries.get? (before ++ after) (.text k) = none) :
    (Entries.has (before ++ (.text key, v) :: after) (.text "attributes") ||
      Entries.has (before ++ (.text key, v) :: after) (.text "columns")) = true := by
  have hhas : Entries.has (before ++ (.text key, v) :: after) (.text key) = true := by
    unfold Entries.has
    rw [Entries.get?_insert_of_none v (by simp) (halone key hkey)]
    rfl
  simp only [Entity.attributesKeys, List.mem_cons, List.not_mem_nil, or_false] at hkey
  rcases hkey with rfl | rfl <;> simp [hhas]

/-- Whether a table names itself depends on its keys only. -/
theorem namesItself_replace (before after : List (Value × Value)) (k v w : Value) :
    namesItself (before ++ (k, v) :: after) = namesItself (before ++ (k, w) :: after) := by
  unfold namesItself
  dsimp only
  rw [Entries.has_replace before after k (.text "name") v w,
    Entries.has_replace before after k (.text "attributes") v w,
    Entries.has_replace before after k (.text "columns") v w]

/-- Whether a declaration names itself, and how, does not depend on its spelling. -/
theorem namesItself_respelled {v w : Value} (h : Entity.Respelled v w) :
    ∀ fields others, v = .map fields → w = .map others →
      namesItself fields = namesItself others ∧
        Value.field fields "name" = Value.field others "name" := by
  cases h with
  | attr name hkey hspec =>
    rintro _ _ ⟨⟩ ⟨⟩
    have hne := (Entity.attributesKeys_apart _ hkey).2
    refine ⟨namesItself_replace _ _ _ _ _, ?_⟩
    rw [Entity.field_insert_of_ne _ hne, Entity.field_insert_of_ne _ hne]
  | key v ha hb halone =>
    rintro _ _ ⟨⟩ ⟨⟩
    have hna := (Entity.attributesKeys_apart _ ha).2
    have hnb := (Entity.attributesKeys_apart _ hb).2
    refine ⟨?_, by rw [Entity.field_insert_of_ne v hna, Entity.field_insert_of_ne v hnb]⟩
    unfold namesItself
    dsimp only
    rw [has_insert_of_ne v hna, has_insert_of_ne v hnb, has_keys_insert v ha halone,
      has_keys_insert v hb halone]

/-- The declarations give the same entity, or are refused for the same cause. -/
def ReadAlike (file : String) (d e : Result (Value × Value)) : Prop :=
  entityOf file d = entityOf file e

theorem ReadAlike.of_respelled {spec other : Value} (h : Entity.Respelled spec other)
    (name : Value) : ReadAlike file (.ok (name, spec)) (.ok (name, other)) :=
  entityOf_congr (h.ofDeclaration_eq name)

theorem ReadAlike.refl (d : Result (Value × Value)) : ReadAlike file d d := rfl

theorem ItemRespelled.declarations {item other : Value} (h : ItemRespelled item other) :
    List.Forall₂ (ReadAlike file) (declarationsOfItem file item) (declarationsOfItem file other) := by
  cases h with
  | declaration hself hspec =>
    obtain ⟨hnames, hname⟩ := namesItself_respelled hspec _ _ rfl rfl
    unfold declarationsOfItem
    dsimp only
    rw [if_pos hself, if_pos (hnames ▸ hself), hname]
    exact .cons (.of_respelled hspec _) .nil
  | @table before after spec other name hself hspec =>
    have hkeys : namesItself (before ++ (name, other) :: after) = false := by
      rw [← hself]
      exact namesItself_replace _ _ _ _ _
    unfold declarationsOfItem
    dsimp only
    rw [hself, hkeys]
    simp only [Bool.false_eq_true, ↓reduceIte, List.map_append, List.map_cons]
    exact Result.forall₂_replace .refl (.of_respelled hspec name) _ _

/-- However its declarations are laid out and spelled, the file declares the same. -/
theorem Respelled.declared_eq {v w : Value} (h : Respelled v w)
    (hv : Value.field table "entities" = v) (hw : Value.field others "entities" = w) :
    declared file table = declared file others := by
  cases h with
  | layout l l' hkeyed => rw [declared_layout hkeyed l hv, declared_layout hkeyed l' hw]
  | table name hspec =>
    refine Result.mapM_congr (?_ : List.Forall₂ (ReadAlike file) _ _)
    rw [declarations_of_map hv, declarations_of_map hw, List.map_append, List.map_append]
    exact Result.forall₂_replace .refl (.of_respelled hspec name) _ _
  | list hitem =>
    have hsame : ∀ ds, List.Forall₂ (ReadAlike file) ds ds :=
      fun _ => List.forall₂_same.mpr fun d _ => .refl d
    refine Result.mapM_congr (?_ : List.Forall₂ (ReadAlike file) _ _)
    rw [declarations_of_list hv, declarations_of_list hw, List.flatMap_append, List.flatMap_append,
      List.flatMap_cons, List.flatMap_cons]
    exact List.rel_append (hsame _) (List.rel_append hitem.declarations (hsame _))

/-! ## Registries -/

/-- The documents differ in the layout or the spelling of their declarations, and may differ beside
them. -/
inductive DocumentRespelled : Value → Value → Prop
  | intro {table others : List (Value × Value)}
      (h : Respelled (Value.field table "entities") (Value.field others "entities")) :
      DocumentRespelled (.map table) (.map others)

/-- A document that is a table is that table, also if it is empty. -/
theorem tableOf_map (entries : List (Value × Value)) : tableOf file (.map entries) = .ok entries := by
  cases entries <;> rfl

/-- After any number of changes a document declares the same, or is refused for the same cause. -/
theorem tableOf_respelled {v w : Value} (h : Relation.EqvGen DocumentRespelled v w) :
    (tableOf file v).map (declared file) = (tableOf file w).map (declared file) := by
  induction h with
  | rel v w h =>
    obtain ⟨h⟩ := h
    rw [tableOf_map, tableOf_map]
    exact congrArg Except.ok (h.declared_eq rfl rfl)
  | refl v => rfl
  | symm v w _ ih => exact ih.symm
  | trans u v w _ _ ih ih' => exact ih.trans ih'

/-- The trees hold the same files in the directory, and the documents in these differ, if at all, by
the layout and the spelling of declarations. -/
structure Rewritten (directory : Path) (t t' : FileTree) : Prop where
  there : t.isDirectory directory = t'.isDirectory directory
  names : t.namesIn directory = t'.namesIn directory
  documents : ∀ name, Related (Relation.EqvGen DocumentRespelled)
    (t.document (directory.child name)) (t'.document (directory.child name))

/-- The file of a name in a directory, with the table that it holds. -/
def readFile (tree : FileTree) (directory : Path) (name : String) :
    Result (String × List (Value × Value)) := do
  return (name, ← tableOf name (← tree.document (directory.child name)))

theorem read_eq (tree : FileTree) (root : String) : read tree root =
    if tree.isDirectory (Path.ofText root) then (do
      let documents ← ((tree.namesIn (Path.ofText root)).filter isDeclarationFile).mapM
        (readFile tree (Path.ofText root))
      return (← documents.mapM fun d => declared d.1 d.2).flatten)
    else refuse (.outage (.noRegistry root)) := by
  unfold read load entities
  dsimp only
  cases tree.isDirectory (Path.ofText root) with
  | false => rfl
  | true =>
    simp only [Bool.not_true, Bool.false_eq_true, ↓reduceIte]
    rw [bind_assoc]
    rfl

theorem related_readFile {directory : Path} {t t' : FileTree} (h : Rewritten directory t t')
    (name : String) : Related (fun d e => declared d.1 d.2 = declared e.1 e.2)
      (readFile t directory name) (readFile t' directory name) := by
  unfold readFile
  refine (h.documents name).bind fun v w hvw => ?_
  refine (Result.related_of_map_eq (tableOf_respelled hvw)).bind fun table others ht => ?_
  exact .given ht

/-- What is read from a registry does not depend on how its files are laid out and spelled. -/
theorem read_of_rewritten {t t' : FileTree} {root : String}
    (h : Rewritten (Path.ofText root) t t') : read t root = read t' root := by
  rw [read_eq, read_eq, h.there, h.names]
  split
  · refine Related.eq ((Related.mapM_self (related_readFile h) _).bind fun documents others hdocs => ?_)
    rw [Result.mapM_congr hdocs]
    exact Result.related_of_eq rfl
  · rfl

end EntityApi.Registry
