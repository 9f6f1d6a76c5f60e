import EntityApi.FileTree
import EntityApi.Proofs.Results
import EntityApi.Proofs.Tables

/-! # Making directories and writing files

A directory can be made unless there is a file in its place or above it (`NotMade`), and
a text can be written unless there is a directory in its place. Neither is in the way of
what is written into the directory afterwards (`isDirectory_child_makeDirectory`,
`isDirectory_child_write`). -/
namespace EntityApi.FileTree

variable {t later : FileTree} {p q : Path} {place : List String} {name other text : String}
  {f : Failure}

/-! ## Places -/

/-- A name leads on to a place in the directory unless it leads up. -/
theorem placeOf_child (h : name ≠ "..") : t.placeOf (p.child name) = t.placeOf p ++ [name] := by
  unfold placeOf Path.placeFrom Path.child
  dsimp only
  rw [List.foldl_append, List.foldl_cons, List.foldl_nil]
  unfold Path.step
  rw [if_neg (by simpa using h)]

/-- The tree with a directory made. -/
def made (t : FileTree) (place : List String) : FileTree :=
  { t with directories := t.directories ++ [place] }

@[simp] theorem placeOf_made (place : List String) : (t.made place).placeOf p = t.placeOf p := rfl

theorem mem_places_made {place other : List String} :
    other ∈ (t.made place).places ↔ other ∈ t.places ∨ other = place := by
  simp [places, made, or_assoc]

/-- A name in a directory is itself that of a directory if one was made there or something is below. -/
theorem isDirectory_child (h : name ≠ "..") : t.isDirectory (p.child name) = true ↔
    t.placeOf p ++ [name] ∈ t.directories ∨ ∃ other ∈ t.places,
      t.placeOf p ++ [name] <+: other ∧ (t.placeOf p ++ [name]).length < other.length := by
  unfold isDirectory
  rw [placeOf_child h]
  unfold hasDirectory
  simp only [Bool.or_eq_true, List.isEmpty_iff, List.append_eq_nil_iff, List.cons_ne_nil,
    and_false, false_or, List.contains_iff_mem, List.any_eq_true, Bool.and_eq_true,
    List.isPrefixOf_iff_prefix, decide_eq_true_eq]

/-! ## Making directories -/

/-- There is a file on the way to the place. -/
def FileAbove (t : FileTree) (place : List String) : Prop :=
  ∃ above, above <+: place ∧ above ≠ place ∧ above ≠ [] ∧ t.file? above ≠ none

/-- What keeps a directory from being made. -/
inductive NotMade (t : FileTree) (p : Path) : Failure → Prop
  | below (h : t.FileAbove (t.placeOf p)) :
      NotMade t p (.accident .notDirectory ("[Errno 20] Not a directory: " ++ Text.quoted p.text))
  | taken (hfree : ¬t.FileAbove (t.placeOf p)) (h : t.file? (t.placeOf p) ≠ none) :
      NotMade t p (.accident .fileExists ("[Errno 17] File exists: " ++ Text.quoted p.text))

theorem mem_properPrefixes {above : List String} :
    above ∈ properPrefixes place ↔ above <+: place ∧ above ≠ place ∧ above ≠ [] := by
  unfold properPrefixes
  simp only [List.mem_filterMap, List.mem_range]
  constructor
  · rintro ⟨n, hn, h⟩
    split at h
    · cases h
    · rename_i hzero
      cases h
      have hlength : (place.take n).length = n := by
        rw [List.length_take]
        omega
      refine ⟨List.take_prefix n place, ?_, ?_⟩
      · intro heq
        rw [heq] at hlength
        omega
      · intro hnil
        rw [hnil] at hlength
        exact hzero (by simpa using hlength.symm)
  · rintro ⟨hbegins, hne, hnil⟩
    have hlength : above.length < place.length :=
      Nat.lt_of_le_of_ne hbegins.length_le fun heq => hne (hbegins.eq_of_length heq)
    refine ⟨above.length, hlength, ?_⟩
    rw [if_neg (by simpa using hnil), ← List.prefix_iff_eq_take.mp hbegins]

theorem fileAbove_iff : ((properPrefixes place).any fun above => (t.file? above).isSome) = true ↔
    t.FileAbove place := by
  simp only [List.any_eq_true, mem_properPrefixes, Option.isSome_iff_ne_none, FileAbove, and_assoc]

theorem makeDirectory_eq_error : t.makeDirectory p = .error f ↔ t.NotMade p f := by
  unfold makeDirectory
  dsimp only
  by_cases habove : t.FileAbove (t.placeOf p)
  · rw [if_pos (fileAbove_iff.mpr habove)]
    constructor
    · rintro ⟨⟩
      exact .below habove
    · rintro (_ | ⟨hfree, _⟩)
      · rfl
      · exact absurd habove hfree
  · rw [if_neg (mt fileAbove_iff.mp habove)]
    by_cases hthere : t.file? (t.placeOf p) = none
    · rw [hthere]
      constructor
      · rintro ⟨⟩
      · rintro (h | ⟨_, h⟩)
        · exact absurd h habove
        · exact absurd hthere h
    · rw [if_pos (Option.isSome_iff_ne_none.mpr hthere)]
      constructor
      · rintro ⟨⟩
        exact .taken habove hthere
      · rintro (h | _)
        · exact absurd h habove
        · rfl

theorem exists_makeDirectory : (∃ later, t.makeDirectory p = .ok later) ↔ ∀ f, ¬t.NotMade p f := by
  simp only [Result.exists_ok_iff_not_error, ne_eq, makeDirectory_eq_error]

theorem makeDirectory_eq_ok (h : t.makeDirectory p = .ok later) : later = t.made (t.placeOf p) := by
  unfold makeDirectory at h
  dsimp only at h
  split at h
  · cases h
  · split at h
    · cases h
    · exact (Except.ok.inj h).symm

/-- A directory that is made is none of the names in it. -/
theorem isDirectory_child_makeDirectory (h : t.makeDirectory p = .ok later) (hname : name ≠ "..") :
    later.isDirectory (p.child name) = t.isDirectory (p.child name) := by
  rw [makeDirectory_eq_ok h]
  rw [Bool.eq_iff_iff, isDirectory_child hname, isDirectory_child hname, placeOf_made]
  have hne : t.placeOf p ++ [name] ≠ t.placeOf p := by simp
  have hdirectories : t.placeOf p ++ [name] ∈ (t.made (t.placeOf p)).directories ↔
      t.placeOf p ++ [name] ∈ t.directories := by
    simp only [made, List.mem_append, List.mem_singleton, hne, or_false]
  refine or_congr hdirectories ?_
  constructor
  · rintro ⟨place, hplace, hprefix, hlength⟩
    rcases mem_places_made.mp hplace with hplace | rfl
    · exact ⟨place, hplace, hprefix, hlength⟩
    · exact absurd hprefix.length_le (by simp)
  · rintro ⟨place, hplace, hprefix⟩
    exact ⟨place, mem_places_made.mpr (.inl hplace), hprefix⟩

/-! ## Writing files -/

/-- The failure of a text that is written where a directory is. -/
def directoryThere (p : Path) : Failure :=
  .accident .isDirectory ("[Errno 21] Is a directory: " ++ Text.quoted p.text)

theorem write_eq_error :
    t.write q text = .error f ↔ t.isDirectory q = true ∧ f = directoryThere q := by
  unfold write
  split
  · rename_i h
    rw [h]
    constructor
    · rintro ⟨⟩
      exact ⟨rfl, rfl⟩
    · rintro ⟨-, rfl⟩
      rfl
  · rename_i h
    simp [h]

theorem exists_write : (∃ later, t.write q text = .ok later) ↔ ¬t.isDirectory q = true :=
  Result.isOk_iff_of_eq_error (fun _ _ => write_eq_error) q

theorem write_eq_ok (h : t.write q text = .ok later) :
    later = { t with files := Entries.put t.files (t.placeOf q) (.text text) } := by
  unfold write at h
  split at h
  · cases h
  · exact (Except.ok.inj h).symm

theorem mem_places_write (h : t.write q text = .ok later) :
    place ∈ later.places ↔ place ∈ t.places ∨ place = t.placeOf q := by
  rw [write_eq_ok h]
  have hkeys : place ∈ Entries.keys (Entries.put t.files (t.placeOf q) (.text text)) ↔
      place ∈ Entries.keys t.files ∨ place = t.placeOf q := by
    rw [Entries.keys_put]
    split
    · rename_i hmem
      exact ⟨.inl, fun hplace => hplace.elim id fun heq => heq ▸ hmem⟩
    · rw [List.mem_append, List.mem_singleton]
  unfold places
  rw [List.mem_append, List.mem_append]
  exact (or_congr hkeys Iff.rfl).trans or_right_comm

/-- A file is no directory, and nothing is below it. -/
theorem isDirectory_child_write (h : t.write (p.child other) text = .ok later)
    (hother : other ≠ "..") (hname : name ≠ "..") :
    later.isDirectory (p.child name) = t.isDirectory (p.child name) := by
  have hplace : later.placeOf p = t.placeOf p := by
    rw [write_eq_ok h]
    rfl
  have hdirectories : later.directories = t.directories := by rw [write_eq_ok h]
  rw [Bool.eq_iff_iff, isDirectory_child hname, isDirectory_child hname, hplace, hdirectories]
  refine or_congr Iff.rfl ?_
  constructor
  · rintro ⟨place, hmem, hprefix, hlength⟩
    rcases (mem_places_write h).mp hmem with hmem | rfl
    · exact ⟨place, hmem, hprefix, hlength⟩
    · rw [placeOf_child hother] at hlength
      exact absurd hlength (by simp)
  · rintro ⟨place, hmem, hprefix⟩
    exact ⟨place, (mem_places_write h).mpr (.inl hmem), hprefix⟩

end EntityApi.FileTree
