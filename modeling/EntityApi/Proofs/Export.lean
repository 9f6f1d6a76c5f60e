import EntityApi.Export
import EntityApi.Proofs.FileTree
import EntityApi.Proofs.Precedence
import EntityApi.Proofs.Steps

/-! # What an export writes, and what keeps it from that

An export into a directory with nothing in it cannot fail: the directory is there
or can be made, its two files are new, and the manifest holds nothing but texts.
It adds the two files and leaves all others as they are (`run_write`). In any other
tree it is refused only for a file in the place of the directory or above it, or for
a directory in the place of one of its files (`run_write_eq_error`). All of these are
there before the export, since what it has written so far is in the way of nothing. -/
namespace EntityApi

namespace FileTree

variable {t : FileTree} {p : Path} {name : String} {text : String}

/-- There is nothing in the directory, and no file in its place or above it. -/
structure Fresh (t : FileTree) (p : Path) : Prop where
  empty : ∀ place ∈ t.places, t.placeOf p <+: place → place = t.placeOf p
  free : ∀ place, place <+: t.placeOf p → t.file? place = none

/-- The tree with a new file. -/
def added (t : FileTree) (place : List String) (text : String) : FileTree :=
  { t with files := t.files ++ [(place, .text text)] }

@[simp] theorem placeOf_added (place : List String) :
    (t.added place text).placeOf p = t.placeOf p := rfl

theorem mem_places_added {place other : List String} :
    other ∈ (t.added place text).places ↔ other ∈ t.places ∨ other = place := by
  simp only [places, added, List.map_append, List.map_cons, List.map_nil, List.mem_append,
    List.mem_singleton]
  tauto

theorem Fresh.makeDirectory (h : t.Fresh p) : t.makeDirectory p = .ok (t.made (t.placeOf p)) := by
  have hfree : ∀ f, ¬t.NotMade p f := by
    rintro f (⟨above, hbegins, -, -, hfile⟩ | ⟨-, hfile⟩)
    · exact hfile (h.free above hbegins)
    · exact hfile (h.free _ (List.prefix_refl _))
  obtain ⟨later, hlater⟩ := exists_makeDirectory.mpr hfree
  rw [hlater, makeDirectory_eq_ok hlater]

/-- Nothing is at the place or below. -/
def Unused (t : FileTree) (place : List String) : Prop := ∀ other ∈ t.places, ¬place <+: other

theorem Unused.made {place : List String} (h : t.Unused (place ++ [name])) :
    (t.made place).Unused (place ++ [name]) := by
  intro other hother hprefix
  rcases mem_places_made.mp hother with hother | rfl
  · exact h other hother hprefix
  · exact absurd hprefix.length_le (by simp)

theorem Unused.added {place : List String} {other : String} (h : t.Unused (place ++ [name]))
    (hne : name ≠ other) : (t.added (place ++ [other]) text).Unused (place ++ [name]) := by
  intro taken htaken hprefix
  rcases mem_places_added.mp htaken with htaken | rfl
  · exact h taken htaken hprefix
  · have hsame := hprefix.eq_of_length (by simp)
    exact hne (List.singleton_inj.mp (List.append_cancel_left hsame))

end FileTree

namespace Export

open FileTree

variable {σ : Type} {t : FileTree} {out : String}

/-- A manifest can be written, since it holds texts only. -/
theorem exists_manifestText (m : Manifest) : ∃ text, manifestText m = .ok text := by
  have htexts : ∀ l : List String, ∃ j, (Manifest.texts l).toJson? = .ok j := by
    intro l
    refine Value.exists_toJson?_list fun v hv => ?_
    obtain ⟨s, _, rfl⟩ := List.mem_map.mp hv
    exact ⟨_, rfl⟩
  have hentry : ∀ e : EntityEntry, ∃ j, (Manifest.entryValue e).toJson? = .ok j := by
    intro e
    refine @Value.exists_toJson?_map [("entity", .text e.entity),
      ("primary_key", .text e.primaryKey), ("fields", Manifest.texts e.fields),
      ("create_fields", Manifest.texts e.createFields), ("queries", Manifest.texts e.queries),
      ("mutations", Manifest.texts e.mutations)] ?_
    simp only [List.forall_mem_cons, List.not_mem_nil, false_implies, implies_true, and_true]
    exact ⟨⟨_, rfl⟩, ⟨_, rfl⟩, htexts _, htexts _, htexts _, htexts _⟩
  have hentries : ∃ j, (Value.list (m.entities.map Manifest.entryValue)).toJson? = .ok j := by
    refine Value.exists_toJson?_list fun v hv => ?_
    obtain ⟨e, _, rfl⟩ := List.mem_map.mp hv
    exact hentry e
  have hmanifest : ∃ j, m.toValue.toJson? = .ok j := by
    refine @Value.exists_toJson?_map [("git_sha", .text m.revision),
      ("entities", .list (m.entities.map Manifest.entryValue)), ("query", Manifest.texts m.query),
      ("mutation", Manifest.texts m.mutation)] ?_
    simp only [List.forall_mem_cons, List.not_mem_nil, false_implies, implies_true, and_true]
    exact ⟨⟨_, rfl⟩, hentries, htexts _, htexts _⟩
  obtain ⟨j, hj⟩ := hmanifest
  exact ⟨j.indented 0, by rw [manifestText, hj]; rfl⟩

theorem exists_record_event (e : Export) (journal : Log.Journal) :
    ∃ later, journal.record e.event = .ok later :=
  Log.Journal.exists_record (List.forall_mem_cons.mpr ⟨⟨_, rfl⟩,
    List.forall_mem_singleton.mpr ⟨_, rfl⟩⟩) journal

/-- What an export is refused for. A cause counts only where none of those above it does. -/
inductive Refused (t : FileTree) (directory : Path) : Failure → Prop
  | directory {f : Failure} (h : t.NotMade directory f) : Refused t directory f
  | schema (hmade : ∀ f, ¬t.NotMade directory f)
      (h : t.isDirectory (into directory).schema = true) :
      Refused t directory (directoryThere (into directory).schema)
  | manifest (hmade : ∀ f, ¬t.NotMade directory f)
      (hschema : t.isDirectory (into directory).schema = false)
      (h : t.isDirectory (into directory).manifest = true) :
      Refused t directory (directoryThere (into directory).manifest)

/-- What has been written of an export is in the way of neither file. -/
theorem isDirectory_schema {made : FileTree} {p : Path} (hmade : t.makeDirectory p = .ok made) :
    made.isDirectory (into p).schema = t.isDirectory (into p).schema :=
  isDirectory_child_makeDirectory hmade (by decide)

theorem isDirectory_manifest {made later : FileTree} {p : Path} {text : String}
    (hmade : t.makeDirectory p = .ok made)
    (hlater : made.write (into p).schema text = .ok later) :
    later.isDirectory (into p).manifest = t.isDirectory (into p).manifest :=
  (isDirectory_child_write hlater (by decide) (by decide)).trans
    (isDirectory_child_makeDirectory hmade (by decide))

/-- An export is refused for just these causes. -/
theorem run_write_eq_error {f : Failure} (api : Api σ) (journal : Log.Journal) :
    (Step.run (write api out) ⟨t, journal⟩).1 = .error f ↔ Refused t (Path.ofText out) f := by
  choose manifest hmanifest using fun revision => exists_manifestText (Manifest.ofApi api revision)
  obtain ⟨reported, hreported⟩ := exists_record_event (into (Path.ofText out)) journal
  unfold write
  dsimp only
  -- the manifest and the report can always be written, which leaves three steps to be refused
  simp only [Step.run_update_bind_eq_error, Step.run_ofResult_bind_eq_error,
    Step.run_look_bind_eq_error, Step.run_log_bind_eq_error, Step.run_pure, hmanifest, hreported,
    reduceCtorEq, Except.ok.injEq,
    exists_eq_left', and_false, exists_false, false_or, or_false]
  constructor
  · rintro (hmake | ⟨made, hmade, hfirst | ⟨later, hlater, hsecond⟩⟩)
    · exact .directory (makeDirectory_eq_error.mp hmake)
    · have hfree := exists_makeDirectory.mp ⟨made, hmade⟩
      obtain ⟨hthere, rfl⟩ := write_eq_error.mp hfirst
      exact .schema hfree ((isDirectory_schema hmade).symm.trans hthere)
    · have hfree := exists_makeDirectory.mp ⟨made, hmade⟩
      have hnone := Bool.eq_false_iff.mpr (exists_write.mp ⟨later, hlater⟩)
      obtain ⟨hthere, rfl⟩ := write_eq_error.mp hsecond
      exact .manifest hfree ((isDirectory_schema hmade).symm.trans hnone)
        ((isDirectory_manifest hmade hlater).symm.trans hthere)
  · rintro (hmake | ⟨hfree, hthere⟩ | ⟨hfree, hnone, hthere⟩)
    · exact .inl (makeDirectory_eq_error.mpr hmake)
    · obtain ⟨made, hmade⟩ := exists_makeDirectory.mpr hfree
      have hfirst := (isDirectory_schema hmade).trans hthere
      exact .inr ⟨made, hmade, .inl (write_eq_error.mpr ⟨hfirst, rfl⟩)⟩
    · obtain ⟨made, hmade⟩ := exists_makeDirectory.mpr hfree
      have hfirst := (isDirectory_schema hmade).trans hnone
      obtain ⟨later, hlater⟩ := exists_write.mpr (Bool.eq_false_iff.mp hfirst)
      have hsecond := (isDirectory_manifest hmade hlater).trans hthere
      exact .inr ⟨made, hmade, .inr ⟨later, hlater, write_eq_error.mpr ⟨hsecond, rfl⟩⟩⟩

end Export

end EntityApi
