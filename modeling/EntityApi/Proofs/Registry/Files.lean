import EntityApi.Proofs.Registry.Layouts
import Mathlib.Data.List.Sort

/-! # The files of a registry

A directory of a tree is known by the names in it (`mem_namesIn`), which come in
the order of their code points whatever the order of the tree
(`sorted_namesIn`). So a registry is read as its files one by one, put together
in the order of their names, and trees that hold the same read alike. -/
namespace EntityApi

namespace FileTree

variable {t t' : FileTree} {p : Path} {place : List String} {n : String}

/-- The names in a directory are those with a file or a directory there or below. -/
theorem mem_namesIn : n ∈ t.namesIn p ↔ ∃ rest, t.placeOf p ++ n :: rest ∈ t.places := by
  unfold namesIn
  rw [List.mem_mergeSort, List.mem_eraseDups, List.mem_filterMap]
  constructor
  · rintro ⟨other, hother, h⟩
    split at h
    · rename_i hprefix
      obtain ⟨rest, rfl⟩ := List.isPrefixOf_iff_prefix.mp hprefix
      rw [List.getElem?_append_right (Nat.le_refl _), Nat.sub_self] at h
      obtain ⟨below, rfl⟩ := List.head?_eq_some_iff.mp (List.head?_eq_getElem? ▸ h)
      exact ⟨below, hother⟩
    · cases h
  · rintro ⟨rest, hrest⟩
    refine ⟨_, hrest, ?_⟩
    rw [if_pos (List.isPrefixOf_iff_prefix.mpr (List.prefix_append _ _)),
      List.getElem?_append_right (Nat.le_refl _), Nat.sub_self]
    rfl

theorem sorted_namesIn (t : FileTree) (p : Path) : (t.namesIn p).Pairwise (· < ·) :=
  Entries.pairwise_lt_mergeSort (Entries.nodup_eraseDups _)

/-- What has something in it is a directory. -/
theorem isDirectory_of_mem_namesIn (h : n ∈ t.namesIn p) : t.isDirectory p = true := by
  obtain ⟨rest, hrest⟩ := mem_namesIn.mp h
  unfold isDirectory hasDirectory
  rw [Bool.or_eq_true, List.any_eq_true]
  refine .inr ⟨_, hrest, ?_⟩
  rw [Bool.and_eq_true, decide_eq_true_eq]
  exact ⟨List.isPrefixOf_iff_prefix.mpr (List.prefix_append _ _), by simp⟩

/-- Without repeated keys a look-up does not depend on the order. -/
theorem lookup_of_perm {κ α : Type} [BEq κ] [LawfulBEq κ] {l l' : List (κ × α)} (h : l.Perm l')
    (hn : (Entries.keys l).Nodup) (key : κ) : l.lookup key = l'.lookup key := by
  induction h with
  | nil => rfl
  | cons e _ ih =>
    obtain ⟨k, a⟩ := e
    simp only [List.lookup_cons, ih (List.nodup_cons.mp hn).2]
  | swap e f l =>
    obtain ⟨k, a⟩ := e
    obtain ⟨k', b⟩ := f
    have hne : k' ≠ k := fun heq => (List.nodup_cons.mp hn).1 (heq ▸ List.mem_cons_self)
    simp only [List.lookup_cons]
    cases hk : key == k with
    | false => rfl
    | true =>
      rw [eq_of_beq hk, beq_false_of_ne hne.symm]
  | trans h _ ih ih' => exact (ih hn).trans (ih' ((h.map Prod.fst).nodup_iff.mp hn))

/-- The trees hold the same, in whatever order it was made. -/
structure Reordered (t t' : FileTree) : Prop where
  files : t.files.Perm t'.files
  /-- There is one file at a place. -/
  distinct : (Entries.keys t.files).Nodup
  directories : t.directories.Perm t'.directories
  start : t.workingDirectory = t'.workingDirectory

theorem Reordered.places (h : Reordered t t') : t.places.Perm t'.places :=
  (h.files.map Prod.fst).append h.directories

theorem Reordered.placeOf_eq (h : Reordered t t') (p : Path) : t.placeOf p = t'.placeOf p := by
  unfold placeOf
  rw [h.start]

theorem Reordered.namesIn_eq (h : Reordered t t') (p : Path) : t.namesIn p = t'.namesIn p := by
  refine (sorted_namesIn t p).eq_of_mem_iff (sorted_namesIn t' p) fun n => ?_
  simp only [mem_namesIn, h.placeOf_eq, h.places.mem_iff]

theorem Reordered.isDirectory_eq (h : Reordered t t') (p : Path) :
    t.isDirectory p = t'.isDirectory p := by
  unfold isDirectory hasDirectory
  rw [h.placeOf_eq, h.directories.contains_eq, h.places.any_eq]

theorem Reordered.document_eq (h : Reordered t t') (p : Path) : t.document p = t'.document p := by
  unfold document file?
  rw [h.isDirectory_eq, h.placeOf_eq, lookup_of_perm h.files h.distinct]

end FileTree

namespace Registry

open Result (Related)

variable {t t' : FileTree} {directory : Path} {root n : String}

theorem related_refl (x : Result Value) : Related (Relation.EqvGen DocumentRespelled) x x := by
  cases x with
  | error e => exact .refused e
  | ok v => exact .given (.refl v)

/-- Trees that hold the same are read alike. -/
theorem read_of_reordered (h : FileTree.Reordered t t') (root : String) :
    read t root = read t' root := by
  refine read_of_rewritten ⟨h.isDirectory_eq _, h.namesIn_eq _, fun name => ?_⟩
  rw [h.document_eq]
  exact related_refl _

/-! ## File by file -/

/-- The directory has something of that name, which is one of a file of declarations. -/
structure HasFile (t : FileTree) (directory : Path) (n : String) : Prop where
  there : ∃ rest, t.placeOf directory ++ n :: rest ∈ t.places
  yaml : ".yaml".toList <:+ n.toList
  notSettings : n ≠ "_settings.yaml"

theorem mem_files_iff :
    n ∈ (t.namesIn directory).filter isDeclarationFile ↔ HasFile t directory n := by
  rw [List.mem_filter, FileTree.mem_namesIn]
  unfold isDeclarationFile settingsFile
  rw [Bool.and_eq_true, bne_iff_ne, ← String.endsWith_toSlice, String.Slice.endsWith_string_iff,
    String.copy_toSlice]
  constructor
  · rintro ⟨hthere, hyaml, hsettings⟩
    exact ⟨hthere, hyaml, hsettings⟩
  · intro h
    exact ⟨h.there, h.yaml, h.notSettings⟩

/-- What one file of a registry declares. -/
def readAlone (tree : FileTree) (directory : Path) (name : String) : Result (List Entity) := do
  let (file, table) ← readFile tree directory name
  declared file table

/-- Just the files of a directory that is there are read, one after another. -/
theorem read_eq_ok {es : List Entity} : read t root = .ok es ↔
    t.isDirectory (Path.ofText root) = true ∧ ∃ parts,
      List.Forall₂ (fun n part => readAlone t (Path.ofText root) n = .ok part)
        ((t.namesIn (Path.ofText root)).filter isDeclarationFile) parts ∧
      es = parts.flatten := by
  have hfiles : ∀ parts, List.Forall₂ (fun n part => readAlone t (Path.ofText root) n = .ok part)
      ((t.namesIn (Path.ofText root)).filter isDeclarationFile) parts ↔
        (((t.namesIn (Path.ofText root)).filter isDeclarationFile).mapM
          (readFile t (Path.ofText root)) >>= fun documents =>
            documents.mapM fun d => declared d.1 d.2) = .ok parts :=
    fun _ => Result.mapM_bind_eq_ok.symm
  rw [read_eq]
  split
  · rename_i hthere
    simp only [hthere, true_and, hfiles]
    rw [← bind_assoc, Result.bind_eq_ok]
    refine exists_congr fun parts => and_congr_right fun _ => ?_
    exact ⟨fun h => (Except.ok.inj h).symm, fun h => congrArg Except.ok h.symm⟩
  · rename_i hthere
    simp [hthere]

/-- A registry of a single file is what that file declares. -/
theorem read_of_single (h : ∀ m, HasFile t (Path.ofText root) m ↔ m = n) :
    read t root = readAlone t (Path.ofText root) n := by
  have hfiles : (t.namesIn (Path.ofText root)).filter isDeclarationFile = [n] := by
    refine ((t.sorted_namesIn _).filter _).eq_of_mem_iff (List.pairwise_singleton _ n) fun m => ?_
    rw [mem_files_iff, h, List.mem_singleton]
  have hthere : t.isDirectory (Path.ofText root) = true :=
    FileTree.isDirectory_of_mem_namesIn (FileTree.mem_namesIn.mpr ((h n).mpr rfl).there)
  rw [read_eq, if_pos hthere, hfiles]
  unfold readAlone
  simp only [List.mapM_cons, List.mapM_nil, pure_bind, bind_assoc, List.flatten_cons,
    List.flatten_nil, List.append_nil, bind_pure]

/-! ## The whole registry -/

/-- Trees that differ in the document of one file only, by changes of layout and spelling. -/
theorem rewritten_document {t : FileTree} {before after : List (List String × FileContent)}
    {place : List String} {v w : Value} (h : Relation.EqvGen DocumentRespelled v w)
    (directory : Path) : Rewritten directory
      { t with files := before ++ (place, .document v) :: after }
      { t with files := before ++ (place, .document w) :: after } := by
  have hplaces : ∀ c : FileContent,
      FileTree.places { t with files := before ++ (place, c) :: after } =
        (before.map Prod.fst ++ place :: after.map Prod.fst) ++ t.directories := by
    intro c
    simp [FileTree.places]
  have hthere : ∀ p, FileTree.isDirectory
      { t with files := before ++ (place, .document v) :: after } p =
        FileTree.isDirectory { t with files := before ++ (place, .document w) :: after } p := by
    intro p
    unfold FileTree.isDirectory FileTree.hasDirectory
    rw [hplaces, hplaces]
    rfl
  refine ⟨hthere _, ?_, fun name => ?_⟩
  · unfold FileTree.namesIn
    dsimp only
    rw [hplaces, hplaces]
    rfl
  · unfold FileTree.document FileTree.file?
    rw [hthere]
    split
    · exact .refused _
    · dsimp only [FileTree.placeOf]
      rw [List.lookup_append, List.lookup_append, List.lookup_cons, List.lookup_cons]
      cases List.lookup ((directory.child name).placeFrom t.workingDirectory) before with
      | some c => exact related_refl _
      | none =>
        cases (directory.child name).placeFrom t.workingDirectory == place with
        | true => exact .given h
        | false => exact related_refl _

/-- **A registry is read for what it declares.** The layout of its files makes no difference, nor
does the spelling of what they declare, nor the order in which the files were made. What is read is
what the single files declare, put together in the order of the code points of their names, where
only names that end in `.yaml` count, and not that of the general settings. -/
theorem reading_ignores_layout_and_order :
    (∀ t t' root, Rewritten (Path.ofText root) t t' → read t root = read t' root) ∧
    (∀ t root es, read t root = .ok es ↔
      t.isDirectory (Path.ofText root) = true ∧ ∃ names parts, names.Pairwise (· < ·) ∧
        (∀ n, n ∈ names ↔ HasFile t (Path.ofText root) n) ∧
        List.Forall₂ (fun n part => readAlone t (Path.ofText root) n = .ok part) names parts ∧
        es = parts.flatten) ∧
    (∀ t root n, (∀ m, HasFile t (Path.ofText root) m ↔ m = n) →
      read t root = readAlone t (Path.ofText root) n) ∧
    ∀ t t', FileTree.Reordered t t' → ∀ root, read t root = read t' root := by
  refine ⟨fun t t' root => read_of_rewritten, fun t root es => ?_,
    fun t root n => read_of_single, fun t t' h root => read_of_reordered h root⟩
  rw [read_eq_ok]
  refine and_congr_right fun _ => ?_
  have hsorted := (t.sorted_namesIn (Path.ofText root)).filter fun n => isDeclarationFile n
  constructor
  · rintro ⟨parts, hparts, hes⟩
    exact ⟨_, parts, hsorted, fun n => mem_files_iff, hparts, hes⟩
  · rintro ⟨names, parts, hnames, hmem, hparts, hes⟩
    -- a sorted list is known by its members
    obtain rfl := hnames.eq_of_mem_iff hsorted fun n => by rw [hmem, mem_files_iff]
    exact ⟨parts, hparts, hes⟩

/-- A table by names and a list of declarations that name themselves, with other spellings. -/
theorem reading_ignores_layout_and_order_of_users :
    let key (primaryKey : String) : Value :=
      .map [(.text "type", .text "INTEGER"), (.text primaryKey, .bool true)]
    let spec (attributes primaryKey : String) (name : Value) : List (Value × Value) :=
      [(.text attributes, .map [(.text "id", key primaryKey), (.text "name", name)])]
    let string : Value := .map [(.text "type", .text "STRING")]
    let document (l : Layout) (spec : List (Value × Value)) : Value :=
      .map [(.text "entities", l.value [("User", spec)])]
    let tree (document : Value) : FileTree :=
      { files := [(["registry", "users.yaml"], .document document)] }
    let table := tree (document .table (spec "attributes" "primary_key" string))
    let list := tree (document .selfNamed (spec "columns" "primaryKey" (.text "STRING")))
    read table "registry" = read list "registry" ∧ (read list "registry").isOk = true := by
  intro key spec string document tree table list
  have hentities : ∀ v w, Respelled v w → Relation.EqvGen DocumentRespelled
      (.map [(.text "entities", v)]) (.map [(.text "entities", w)]) := by
    intro v w h
    refine .rel _ _ ⟨?_⟩
    simpa [Value.field, Value.lookup, Entries.get?] using h
  have hspec : ∀ s t, Entity.Respelled (.map s) (.map t) →
      Relation.EqvGen DocumentRespelled (document .table s) (document .table t) :=
    fun s t h => hentities _ _ (@Respelled.table [] [] _ _ (.text "User") h)
  have hkey := hspec (spec "attributes" "primary_key" string) (spec "attributes" "primaryKey" string) <|
    @Entity.Respelled.attr "attributes" [] [] [] [(.text "name", string)] _ _ (.text "id") (by decide)
      (@Attribute.Respelled.option Attribute.primaryKeyNames "primary_key" "primaryKey"
        [(.text "type", .text "INTEGER")] [] (.bool true) (by decide) (by decide) (by decide) (by
          simp [Attribute.primaryKeyNames, Entries.get?]))
  have hname := hspec (spec "attributes" "primaryKey" string)
    (spec "attributes" "primaryKey" (.text "STRING")) <|
    @Entity.Respelled.attr "attributes" [] [] [(.text "id", key "primaryKey")] [] _ _ (.text "name")
      (by decide) (.bare "STRING")
  have hcolumns := hspec (spec "attributes" "primaryKey" (.text "STRING"))
    (spec "columns" "primaryKey" (.text "STRING")) <|
    @Entity.Respelled.key "attributes" "columns" [] [] _ (by decide) (by decide) fun _ _ => rfl
  have hlayout := hentities _ _ <|
    @Respelled.layout [("User", spec "columns" "primaryKey" (.text "STRING"))] .table .selfNamed
      (List.forall_mem_singleton.mpr ⟨"columns", by decide, by decide +kernel⟩)
  have hdocument := ((hkey.trans _ _ _ hname).trans _ _ _ hcolumns).trans _ _ _ hlayout
  exact ⟨reading_ignores_layout_and_order.1 _ _ _
    (@rewritten_document {} [] [] ["registry", "users.yaml"] _ _ hdocument _), by decide +kernel⟩

end Registry

end EntityApi
