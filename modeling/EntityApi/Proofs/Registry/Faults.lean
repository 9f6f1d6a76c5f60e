import EntityApi.Proofs.Registry.Declarations
import EntityApi.Proofs.Registry.Files

/-! # Every fault names its file

What stands under the entities of a file comes apart into declarations and into things
that should have been some (`Part`). Once the documents of all files are tables, or
empty, the parts of all files are read in a row (`Laid.read_eq`), so that the first part
with a fault is reported, with the file that it is in. A document of another kind is
reported before that, when the files are loaded. -/
namespace EntityApi.Registry

/-! ## The parts of a file -/

/-- What is found under the entities of a file. -/
inductive Part where
  /-- The entities, which are neither a table nor a list. -/
  | entities (v : Value)
  /-- An item of the list, which is no table. -/
  | item (v : Value)
  | declaration (name spec : Value)

/-- The parts of an item of a list: a table that names itself is one declaration, any other one
holds declarations by name. -/
inductive Item : Value → List Part → Prop
  | stray {v : Value} (h : ∀ entries, v ≠ .map entries) : Item v [.item v]
  | own {entries : List (Value × Value)} (h : namesItself entries = true) :
      Item (.map entries) [.declaration (Value.field entries "name") (.map entries)]
  | table {entries : List (Value × Value)} (h : namesItself entries = false) :
      Item (.map entries) (entries.map fun e => .declaration e.1 e.2)

/-- The parts of what stands under the entities, in order. -/
inductive Contents : Value → List Part → Prop
  | none {v : Value} (h : v.truthy = false) : Contents v []
  | table (entries : List (Value × Value)) :
      Contents (.map entries) (entries.map fun e => .declaration e.1 e.2)
  | list {items : List Value} {parts : List (List Part)} (h : List.Forall₂ Item items parts) :
      Contents (.list items) parts.flatten
  | stray {v : Value} (h : v.truthy = true) (hmap : ∀ entries, v ≠ .map entries)
      (hlist : ∀ items, v ≠ .list items) : Contents v [.entities v]

/-- The parts of a document, which may be empty. -/
inductive Document : Value → List Part → Prop
  | empty {v : Value} (h : v.truthy = false) : Document v []
  | table {table : List (Value × Value)} {parts : List Part}
      (h : Contents (Value.field table "entities") parts) : Document (.map table) parts

/-- The document is there, and it is no table. -/
def Misshaped (v : Value) : Prop := v.truthy = true ∧ ∀ table, v ≠ .map table

namespace Part

/-- What is wrong with a part. -/
inductive Fault : Part → Failure → Prop
  | entities (v : Value) : Fault (.entities v) (.entitiesShape v.kind)
  | item (v : Value) : Fault (.item v) (.entityItemShape v.kind)
  | declaration {name spec : Value} {e : Failure} (h : Entity.Fault name spec e) :
      Fault (.declaration name spec) e

/-- The part is a declaration that gives the entity. -/
inductive Gives : Part → Entity → Prop
  | declaration {name spec : Value} {x : Entity} (h : Entity.Gives name spec x) :
      Gives (.declaration name spec) x

variable {file : String} {part : Part} {e cause : Failure}

theorem Fault.isMalformed (h : Fault part e) : e.isMalformed = true := by
  cases h with
  | entities v => rfl
  | item v => rfl
  | declaration h => exact h.isMalformed

theorem Fault.ne_inFile (h : Fault part e) : e ≠ .inFile file cause := by
  cases h with
  | entities v => nofun
  | item v => nofun
  | declaration h => exact h.ne_inFile file cause

/-- The declaration that a file has in the place of the part. -/
def declaration? (file : String) : Part → Result (Value × Value)
  | .entities v => refuse (.inFile file (.entitiesShape v.kind))
  | .item v => refuse (.inFile file (.entityItemShape v.kind))
  | .declaration name spec => .ok (name, spec)

/-- The entity of a part, if it is read in that file. -/
def entity? (file : String) (part : Part) : Result Entity := entityOf file (part.declaration? file)

theorem entity?_declaration (file : String) (name spec : Value) :
    (declaration name spec).entity? file = (match Entity.ofDeclaration name spec with
      | .ok x => .ok x
      | .error cause => .error (if cause.isMalformed then .inFile file cause else cause)) := by
  unfold entity? entityOf declaration?
  rw [Result.ok_bind]
  dsimp only
  cases Entity.ofDeclaration name spec <;> rfl

theorem Gives.entity?_eq {x : Entity} (h : Gives part x) (file : String) :
    part.entity? file = .ok x := by
  obtain ⟨h⟩ := h
  rw [entity?_declaration, Entity.ofDeclaration_eq_ok.mpr h]

/-- A fault is reported with the file, once. -/
theorem Fault.entity?_eq (h : Fault part e) (file : String) :
    part.entity? file = .error (.inFile file e) := by
  cases h with
  | entities v => rfl
  | item v => rfl
  | declaration h =>
    rw [entity?_declaration, Entity.ofDeclaration_eq_error.mpr h]
    dsimp only
    rw [if_pos h.isMalformed]

theorem gives_or_fault (part : Part) : (∃ x, Gives part x) ∨ ∃ cause, Fault part cause := by
  cases part with
  | entities v => exact .inr ⟨_, .entities v⟩
  | item v => exact .inr ⟨_, .item v⟩
  | declaration name spec =>
    cases h : Entity.ofDeclaration name spec with
    | ok x => exact .inl ⟨x, .declaration (Entity.ofDeclaration_eq_ok.mp h)⟩
    | error cause => exact .inr ⟨cause, .declaration (Entity.ofDeclaration_eq_error.mp h)⟩

theorem entity?_eq_ok {x : Entity} : part.entity? file = .ok x ↔ Gives part x := by
  refine ⟨fun h => ?_, fun h => h.entity?_eq file⟩
  rcases part.gives_or_fault with ⟨y, hy⟩ | ⟨cause, hcause⟩
  · rw [hy.entity?_eq] at h
    exact Except.ok.inj h ▸ hy
  · rw [hcause.entity?_eq] at h
    cases h

theorem entity?_eq_error :
    part.entity? file = .error e ↔ ∃ cause, Fault part cause ∧ e = .inFile file cause := by
  constructor
  · intro h
    rcases part.gives_or_fault with ⟨y, hy⟩ | ⟨cause, hcause⟩
    · rw [hy.entity?_eq] at h
      cases h
    · rw [hcause.entity?_eq] at h
      exact ⟨cause, hcause, (Except.error.inj h).symm⟩
  · rintro ⟨cause, hcause, rfl⟩
    exact hcause.entity?_eq file

end Part

variable {file : String} {v : Value} {parts : List Part}

theorem Item.declarations_eq (h : Item v parts) :
    declarationsOfItem file v = parts.map (Part.declaration? file) := by
  cases h with
  | stray h =>
    unfold declarationsOfItem
    split
    · exact absurd rfl (h _)
    · rfl
  | own h =>
    unfold declarationsOfItem
    dsimp only
    rw [if_pos h]
    rfl
  | table h =>
    unfold declarationsOfItem
    dsimp only
    rw [h, List.map_map]
    rfl

theorem flatMap_declarationsOfItem {items : List Value} {parts : List (List Part)}
    (h : List.Forall₂ Item items parts) :
    items.flatMap (declarationsOfItem file) = parts.flatten.map (Part.declaration? file) := by
  induction h with
  | nil => rfl
  | cons hitem _ ih =>
    rw [List.flatMap_cons, List.flatten_cons, List.map_append, hitem.declarations_eq, ih]

theorem exists_item (v : Value) : ∃ parts, Item v parts := by
  by_cases hmap : ∃ entries, v = .map entries
  · obtain ⟨entries, rfl⟩ := hmap
    cases h : namesItself entries with
    | true => exact ⟨_, .own h⟩
    | false => exact ⟨_, .table h⟩
  · exact ⟨_, .stray (not_exists.mp hmap)⟩

theorem Contents.declarations_eq {table : List (Value × Value)}
    (h : Contents (Value.field table "entities") parts) :
    declarations file table = parts.map (Part.declaration? file) := by
  generalize hv : Value.field table "entities" = v at h
  cases h with
  | none h =>
    unfold declarations
    dsimp only
    rw [hv, h]
    rfl
  | table entries =>
    rw [declarations_of_map hv, List.map_map]
    rfl
  | list h =>
    rw [declarations_of_list hv]
    exact flatMap_declarationsOfItem h
  | stray h hmap hlist =>
    unfold declarations
    dsimp only
    rw [hv, h]
    cases v with
    | map entries => exact absurd rfl (hmap entries)
    | list items => exact absurd rfl (hlist items)
    | _ => rfl

theorem exists_contents (v : Value) : ∃ parts, Contents v parts := by
  by_cases hmap : ∃ entries, v = .map entries
  · obtain ⟨entries, rfl⟩ := hmap
    exact ⟨_, .table entries⟩
  by_cases hlist : ∃ items, v = .list items
  · obtain ⟨items, rfl⟩ := hlist
    choose parts hparts using exists_item
    exact ⟨_, .list (List.forall₂_map_right_iff.mpr (List.forall₂_same.mpr fun i _ => hparts i))⟩
  cases h : v.truthy with
  | false => exact ⟨_, .none h⟩
  | true => exact ⟨_, .stray h (not_exists.mp hmap) (not_exists.mp hlist)⟩

/-- The table of a document declares what its parts do. -/
theorem Document.declared_eq (file : String) (h : Document v parts) :
    ∃ table, tableOf file v = .ok table ∧ declared file table = parts.mapM (Part.entity? file) := by
  cases h with
  | empty h =>
    refine ⟨[], ?_, rfl⟩
    unfold tableOf
    rw [h]
    rfl
  | table h =>
    refine ⟨_, tableOf_map _, ?_⟩
    rw [declared, h.declarations_eq, List.mapM_map]
    rfl

theorem misshaped_or_document (v : Value) : Misshaped v ∨ ∃ parts, Document v parts := by
  by_cases hmap : ∃ table, v = .map table
  · obtain ⟨table, rfl⟩ := hmap
    obtain ⟨parts, hparts⟩ := exists_contents (Value.field table "entities")
    exact .inr ⟨parts, .table hparts⟩
  · cases h : v.truthy with
    | false => exact .inr ⟨[], .empty h⟩
    | true => exact .inl ⟨h, not_exists.mp hmap⟩

theorem tableOf_eq_error {e : Failure} :
    tableOf file v = .error e ↔ Misshaped v ∧ e = .inFile file (.documentShape v.kind) := by
  constructor
  · intro h
    rcases misshaped_or_document v with hv | ⟨parts, hparts⟩
    · refine ⟨hv, ?_⟩
      unfold tableOf at h
      rw [hv.1] at h
      cases v with
      | map table => exact absurd rfl (hv.2 table)
      | _ =>
        cases h
        rfl
    · obtain ⟨table, htable, _⟩ := hparts.declared_eq file
      rw [htable] at h
      cases h
  · rintro ⟨⟨htruthy, hmap⟩, rfl⟩
    unfold tableOf
    rw [htruthy]
    cases v with
    | map table => exact absurd rfl (hmap table)
    | _ => rfl

/-! ## The files of a registry -/

/-- The files of a directory that count, in order of their names, with the documents in them. -/
structure Holds (t : FileTree) (directory : Path) (files : List (String × Value)) : Prop where
  sorted : (Entries.keys files).Pairwise (· < ·)
  names : ∀ n, n ∈ Entries.keys files ↔ HasFile t directory n
  documents : ∀ f ∈ files, t.document (directory.child f.1) = .ok f.2

/-- The parts of all files, each with the name of its file. -/
inductive Laid : List (String × Value) → List (String × Part) → Prop
  | nil : Laid [] []
  | cons {file : String} {v : Value} {parts : List Part} {files : List (String × Value)}
      {others : List (String × Part)} (h : Document v parts) (hfiles : Laid files others) :
      Laid ((file, v) :: files) (parts.map (fun part => (file, part)) ++ others)

variable {t : FileTree} {root : String} {files : List (String × Value)}
  {parts : List (String × Part)} {e : Failure}

theorem exists_holds {directory : Path}
    (h : ∀ n, HasFile t directory n → ∃ v, t.document (directory.child n) = .ok v) :
    ∃ files, Holds t directory files := by
  let document (n : String) : Result (String × Value) := do
    return (n, ← t.document (directory.child n))
  have hdocuments : ∀ n ∈ (t.namesIn directory).filter isDeclarationFile,
      ∃ f, document n = .ok f := by
    intro n hn
    obtain ⟨v, hv⟩ := h n (mem_files_iff.mp hn)
    refine ⟨(n, v), ?_⟩
    simp only [document, hv]
    rfl
  obtain ⟨files, hfiles⟩ := Result.exists_mapM.mpr hdocuments
  have hread : List.Forall₂ (fun n (f : String × Value) =>
      n = f.1 ∧ t.document (directory.child f.1) = .ok f.2)
      ((t.namesIn directory).filter isDeclarationFile) files := by
    refine (Result.mapM_eq_ok.mp hfiles).imp fun n f hf => ?_
    obtain ⟨v, hv, hf⟩ := Result.bind_eq_ok.mp hf
    cases hf
    exact ⟨rfl, hv⟩
  have hkeys : Entries.keys files = (t.namesIn directory).filter isDeclarationFile := by
    have hnames := hread.imp fun _ _ hf => hf.1
    rw [Entries.keys, ← List.forall₂_eq_eq_eq, List.forall₂_map_left_iff]
    exact hnames.flip.imp fun _ _ h => h.symm
  refine ⟨files, ?_, fun n => ?_, fun f hf => ?_⟩
  · rw [hkeys]
    exact (t.sorted_namesIn directory).filter _
  · rw [hkeys, mem_files_iff]
  · obtain ⟨_, _, _, hdocument⟩ := Result.exists_of_mem_right hread hf
    exact hdocument

/-- The name of a file with the table in it. -/
def tableIn (f : String × Value) : Result (String × List (Value × Value)) := do
  return (f.1, ← tableOf f.1 f.2)

theorem tableIn_eq_error {f : String × Value} : tableIn f = .error e ↔
    Misshaped f.2 ∧ e = .inFile f.1 (.documentShape f.2.kind) := by
  rw [tableIn, Result.bind_eq_error, tableOf_eq_error]
  simp [pure, Except.pure]

theorem load_eq (hthere : t.isDirectory (Path.ofText root) = true)
    (h : Holds t (Path.ofText root) files) :
    load t root = (do return ⟨← files.mapM tableIn⟩) := by
  have hnames : (t.namesIn (Path.ofText root)).filter isDeclarationFile = Entries.keys files := by
    refine ((t.sorted_namesIn _).filter _).eq_of_mem_iff h.sorted fun n => ?_
    rw [mem_files_iff, h.names]
  unfold load
  dsimp only
  rw [hthere, hnames, Entries.keys, List.mapM_map]
  have htables : List.Forall₂ (fun f g : String × Value =>
      (do return (f.1, ← tableOf f.1 (← t.document ((Path.ofText root).child f.1)))) = tableIn g)
      files files := by
    refine List.forall₂_same.mpr fun f hf => ?_
    rw [h.documents f hf]
    rfl
  rw [← Result.mapM_congr htables]
  rfl

theorem Document.not_misshaped {v : Value} {parts : List Part} (h : Document v parts) :
    ¬Misshaped v := by
  rintro ⟨htruthy, hmap⟩
  cases h with
  | empty h =>
    rw [h] at htruthy
    cases htruthy
  | table h => exact hmap _ rfl

theorem laid_or_misshaped (files : List (String × Value)) : (∃ parts, Laid files parts) ∨
    ∃ f, Result.FirstOf (fun f : String × Value => Misshaped f.2) files f := by
  induction files with
  | nil => exact .inl ⟨[], .nil⟩
  | cons f files ih =>
    obtain ⟨file, v⟩ := f
    rcases misshaped_or_document v with hv | ⟨parts, hv⟩
    · exact .inr ⟨(file, v), [], files, rfl, nofun, hv⟩
    · rcases ih with ⟨others, hothers⟩ | ⟨f, before, after, rfl, hbefore, hf⟩
      · exact .inl ⟨_, .cons hv hothers⟩
      · exact .inr ⟨f, (file, v) :: before, after, rfl,
          List.forall_mem_cons.mpr ⟨hv.not_misshaped, hbefore⟩, hf⟩

/-- The parts of all files are read in a row. -/
theorem Laid.read_eq (h : Laid files parts) : ∃ documents, files.mapM tableIn = .ok documents ∧
    (Registry.mk documents).entities = parts.mapM fun p => p.2.entity? p.1 := by
  induction h with
  | nil => exact ⟨[], rfl, rfl⟩
  | @cons file v own files others h _ ih =>
    obtain ⟨table, htable, hdeclared⟩ := h.declared_eq file
    obtain ⟨documents, hdocuments, hread⟩ := ih
    refine ⟨(file, table) :: documents, ?_, ?_⟩
    · rw [List.mapM_cons, hdocuments, tableIn, htable]
      rfl
    · have hown : own.mapM ((fun p : String × Part => p.2.entity? p.1) ∘ fun part => (file, part)) =
          declared file table := hdeclared.symm
      rw [List.mapM_append, List.mapM_map, ← hread, hown]
      unfold entities
      rw [List.mapM_cons]
      simp only [bind_assoc, pure_bind, List.flatten_cons]
      rfl

theorem Laid.mem_left (h : Laid files parts) : ∀ p ∈ parts, ∃ f ∈ files, f.1 = p.1 := by
  induction h with
  | nil => nofun
  | @cons file v own files others _ _ ih =>
    intro p hp
    rcases List.mem_append.mp hp with hp | hp
    · obtain ⟨part, _, rfl⟩ := List.mem_map.mp hp
      exact ⟨(file, v), List.mem_cons_self, rfl⟩
    · obtain ⟨f, hf, hname⟩ := ih p hp
      exact ⟨f, List.mem_cons_of_mem _ hf, hname⟩

/-! ## What is read -/

/-- What a registry of these files is refused for: the first document that is no table, and if all
documents are tables or empty, the first fault in any part. -/
inductive Reported (files : List (String × Value)) : Failure → Prop
  | document {f : String × Value}
      (h : Result.FirstOf (fun f : String × Value => Misshaped f.2) files f) :
      Reported files (.inFile f.1 (.documentShape f.2.kind))
  | part {parts : List (String × Part)} {e : Failure} (hparts : Laid files parts)
      (h : Result.FirstFault (fun (p : String × Part) e =>
        ∃ cause, p.2.Fault cause ∧ e = .inFile p.1 cause) parts e) : Reported files e

section

variable (hthere : t.isDirectory (Path.ofText root) = true)
  (hfiles : Holds t (Path.ofText root) files)
include hthere hfiles

theorem load_eq_error : load t root = .error e ↔
    ∃ f, Result.FirstOf (fun f : String × Value => Misshaped f.2) files f ∧
      e = .inFile f.1 (.documentShape f.2.kind) := by
  rw [load_eq hthere hfiles, Result.bind_eq_error, Result.mapM_eq_error,
    Result.firstRefused_iff_firstOf fun _ _ => tableIn_eq_error]
  simp [pure, Except.pure]

theorem read_of_laid (h : Laid files parts) :
    read t root = parts.mapM fun p => p.2.entity? p.1 := by
  obtain ⟨documents, hdocuments, hread⟩ := h.read_eq
  rw [read, load_eq hthere hfiles, hdocuments]
  exact hread

theorem read_of_misshaped {f : String × Value}
    (h : Result.FirstOf (fun f : String × Value => Misshaped f.2) files f) :
    read t root = .error (.inFile f.1 (.documentShape f.2.kind)) := by
  rw [read, (load_eq_error hthere hfiles).mpr ⟨f, h, rfl⟩]
  rfl

theorem read_eq_ok_iff {es : List Entity} : read t root = .ok es ↔
    ∃ parts, Laid files parts ∧ List.Forall₂ (fun p x => p.2.Gives x) parts es := by
  have hgives : ∀ parts : List (String × Part), parts.mapM (fun p => p.2.entity? p.1) = .ok es ↔
      List.Forall₂ (fun p x => p.2.Gives x) parts es := by
    intro parts
    rw [Result.mapM_eq_ok]
    simp only [Part.entity?_eq_ok]
  constructor
  · intro h
    rcases laid_or_misshaped files with ⟨parts, hparts⟩ | ⟨f, hf⟩
    · rw [read_of_laid hthere hfiles hparts] at h
      exact ⟨parts, hparts, (hgives parts).mp h⟩
    · rw [read_of_misshaped hthere hfiles hf] at h
      cases h
  · rintro ⟨parts, hparts, h⟩
    rw [read_of_laid hthere hfiles hparts]
    exact (hgives parts).mpr h

theorem read_eq_error_iff : read t root = .error e ↔ Reported files e := by
  have hfault : ∀ parts : List (String × Part),
      parts.mapM (fun p => p.2.entity? p.1) = .error e ↔
        Result.FirstFault (fun (p : String × Part) e =>
          ∃ cause, p.2.Fault cause ∧ e = .inFile p.1 cause) parts e := by
    intro parts
    rw [Result.mapM_eq_error]
    exact Result.firstRefused_iff_firstFault fun _ _ => Part.entity?_eq_error
  constructor
  · intro h
    rcases laid_or_misshaped files with ⟨parts, hparts⟩ | ⟨f, hf⟩
    · rw [read_of_laid hthere hfiles hparts] at h
      exact .part hparts ((hfault parts).mp h)
    · rw [read_of_misshaped hthere hfiles hf] at h
      cases h
      exact .document hf
  · intro h
    cases h with
    | document hf => exact read_of_misshaped hthere hfiles hf
    | part hparts h =>
      rw [read_of_laid hthere hfiles hparts]
      exact (hfault _).mpr h

end

/-- Whatever is reported is a malformed value in one of the files, and names that file once. -/
theorem Reported.in_file (h : Reported files e) : e.isMalformed = true ∧ ∃ f ∈ files, ∃ cause,
    e = .inFile f.1 cause ∧ e.message = f.1 ++ ": " ++ cause.message ∧
      ∀ file inner, cause ≠ .inFile file inner := by
  cases h with
  | @document f h =>
    obtain ⟨before, after, rfl, _, _⟩ := h
    exact ⟨rfl, f, List.mem_append_right before List.mem_cons_self, _, rfl, rfl, nofun⟩
  | part hparts h =>
    obtain ⟨before, p, after, rfl, _, cause, hcause, rfl⟩ := h
    obtain ⟨f, hf, hname⟩ := hparts.mem_left p (List.mem_append_right before List.mem_cons_self)
    exact ⟨rfl, f, hf, cause, by rw [hname], by rw [hname]; rfl, fun _ _ => hcause.ne_inFile⟩

/-- **Every fault of a registry names its file.** If there is a document in every file of the
directory, of whatever kind it is and whatever is in it, then an entity is read for each declaration,
file after file and in order, or else a malformed value is reported with the name of the file that it
is in. That is the first document that is no table, which is reported when the files are loaded, and
if there is none, the first fault among the entities of all files. -/
theorem registry_faults_name_their_file (hthere : t.isDirectory (Path.ofText root) = true)
    (hdocuments : ∀ n, HasFile t (Path.ofText root) n →
      ∃ v, t.document ((Path.ofText root).child n) = .ok v) :
    ∃ files, Holds t (Path.ofText root) files ∧
      (∀ e, load t root = .error e ↔
        ∃ f, Result.FirstOf (fun f : String × Value => Misshaped f.2) files f ∧
          e = .inFile f.1 (.documentShape f.2.kind)) ∧
      (∀ es, read t root = .ok es ↔
        ∃ parts, Laid files parts ∧ List.Forall₂ (fun p x => p.2.Gives x) parts es) ∧
      (∀ e, read t root = .error e ↔ Reported files e) ∧
      ∀ e, read t root = .error e → e.isMalformed = true ∧ ∃ f ∈ files, ∃ cause,
        e = .inFile f.1 cause ∧ e.message = f.1 ++ ": " ++ cause.message ∧
          ∀ file inner, cause ≠ .inFile file inner := by
  obtain ⟨files, hfiles⟩ := exists_holds hdocuments
  refine ⟨files, hfiles, fun e => load_eq_error hthere hfiles, fun es => read_eq_ok_iff hthere hfiles,
    fun e => read_eq_error_iff hthere hfiles, fun e h => ?_⟩
  exact ((read_eq_error_iff hthere hfiles).mp h).in_file

theorem registry_faults_name_their_file_of_users :
    let users : Value := .map [(.text "entities", .list [
      .map [(.text "User", .map [(.text "columns", .map [(.text "age", .int 5)])])], .text "Tag"])]
    let tree : FileTree := { files := [(["registry", "users.yaml"], .document users)] }
    tree.isDirectory (Path.ofText "registry") = true ∧
    (∀ n, HasFile tree (Path.ofText "registry") n →
      ∃ v, tree.document ((Path.ofText "registry").child n) = .ok v) ∧
    ∃ files, Holds tree (Path.ofText "registry") files ∧
      Reported files (.inFile "users.yaml" (.inAttribute "User" "age" (.attributeShape "int"))) := by
  intro users tree
  have hthere : tree.isDirectory (Path.ofText "registry") = true := by decide +kernel
  have hnames : (tree.namesIn (Path.ofText "registry")).filter isDeclarationFile =
      ["users.yaml"] := by decide +kernel
  have hdocuments : ∀ n, HasFile tree (Path.ofText "registry") n →
      ∃ v, tree.document ((Path.ofText "registry").child n) = .ok v := by
    intro n hn
    rw [← mem_files_iff, hnames, List.mem_singleton] at hn
    rw [hn]
    exact Result.exists_of_isOk (by decide +kernel)
  have hread : read tree "registry" =
      .error (.inFile "users.yaml" (.inAttribute "User" "age" (.attributeShape "int"))) := by
    have hrefused : (match read tree "registry" with
        | .ok _ => none
        | .error e => some e) =
        some (.inFile "users.yaml" (.inAttribute "User" "age" (.attributeShape "int"))) := by
      decide +kernel
    cases hr : read tree "registry" with
    | ok es =>
      rw [hr] at hrefused
      cases hrefused
    | error e =>
      rw [hr] at hrefused
      exact congrArg Except.error (Option.some.inj hrefused)
  obtain ⟨files, hfiles, -, -, hreported, -⟩ := registry_faults_name_their_file hthere hdocuments
  exact ⟨hthere, hdocuments, files, hfiles, (hreported _).mp hread⟩

end EntityApi.Registry
