import EntityApi.Model
import EntityApi.Proofs.Value.Texts

/-! # Reading the attributes of an entity

Attributes are read one after another, with the key found so far carried along.
The reading is refused at the first attribute whose type has no scalar or that is
flagged after a flagged one (`readFields_eq_error`), and otherwise gives each
attribute its field (`readFields_eq_ok`). Either lemma is read off from the list
alone: it is sound, or it has a first attribute that offends (`sound_or_offends`). -/
namespace EntityApi.Model

/-! ## Attributes that make no model -/

/-- The name of the attribute that is flagged as the key, if there is one. -/
def flagged? (attrs : List (String × Attribute)) : Option String :=
  (attrs.find? (·.2.primaryKey)).map Prod.fst

/-- Every attribute has a scalar and at most one is flagged as the key. -/
structure Sound (attrs : List (String × Attribute)) : Prop where
  typed : ∀ x ∈ attrs, ∃ s, StorageType.scalar x.2.type = .ok s
  oneKey : (attrs.filter (·.2.primaryKey)).length ≤ 1

/-- What an attribute of the entity is refused for, after the attributes `before`. A type comes
before a flag, and a type that has no text (it is an overlong number) is told by itself. -/
inductive Offends (entity : String) (before : List (String × Attribute)) (x : String × Attribute) :
    Failure → Prop
  | unsupported {tag shown : String} (htag : StorageType.tagOf x.2.type = .ok tag)
      (hnone : StorageType.scalarOfTag? tag = none) (hshown : x.2.type.shown? = .ok shown) :
      Offends entity before x (.unsupportedType shown (some (entity, x.1)))
  | unreadable {e : Failure} (htag : StorageType.tagOf x.2.type = .error e) :
      Offends entity before x e
  | secondKey {s : Scalar} {first : String} (htype : StorageType.scalar x.2.type = .ok s)
      (hflag : x.2.primaryKey = true) (hfirst : flagged? before = some first) :
      Offends entity before x (.manyKeys entity first x.1)

variable {entity attr : String} {declared : Value} {s : Scalar} {e : Failure}

theorem tagOf_eq_error (h : StorageType.tagOf declared = .error e) :
    ∃ text, e = .accident .badValue text := by
  unfold StorageType.tagOf at h
  split at h
  · exact ((Value.text?_refused declared).bind fun _ => .ok _).fits e h
  · cases h

theorem shown?_of_tagOf {tag : String} (h : StorageType.tagOf declared = .ok tag) :
    ∃ shown, declared.shown? = .ok shown := by
  unfold StorageType.tagOf at h
  cases ht : declared.truthy with
  | false => exact Value.shown?_of_not_truthy ht
  | true =>
    simp only [ht, ↓reduceIte] at h
    obtain ⟨text, htext, _⟩ := Result.bind_eq_ok.mp h
    exact Value.shown?_of_text? htext

theorem scalarOf_eq_ok : scalarOf entity attr declared = .ok s ↔
    StorageType.scalar declared = .ok s := by
  unfold scalarOf
  split
  · rename_i h
    rw [h]
    simp
  · rfl

/-- The two ways in which a type has no scalar. -/
theorem scalarOf_eq_error : scalarOf entity attr declared = .error e ↔
    (∃ tag shown, StorageType.tagOf declared = .ok tag ∧ StorageType.scalarOfTag? tag = none ∧
      declared.shown? = .ok shown ∧ e = .unsupportedType shown (some (entity, attr))) ∨
    StorageType.tagOf declared = .error e := by
  unfold scalarOf StorageType.scalar
  cases htag : StorageType.tagOf declared with
  | error f =>
    obtain ⟨text, rfl⟩ := tagOf_eq_error htag
    simp [bind, Except.bind]
  | ok tag =>
    cases hs : StorageType.scalarOfTag? tag with
    | some s => simp [hs, bind, Except.bind, pure, Except.pure]
    | none =>
      obtain ⟨shown, hshown⟩ := shown?_of_tagOf htag
      simp [hs, hshown, bind, Except.bind, refuse, eq_comm]

theorem offends_type {before : List (String × Attribute)} {x : String × Attribute}
    (h : scalarOf entity x.1 x.2.type = .error e) : Offends entity before x e := by
  rcases scalarOf_eq_error.mp h with ⟨tag, shown, htag, hnone, hshown, rfl⟩ | htag
  · exact .unsupported htag hnone hshown
  · exact .unreadable htag

/-! ## Reading the attributes -/

section

variable {before rest attrs : List (String × Attribute)} {x : String × Attribute}
  {fields : List Field}

theorem flagged?_append_of_flag (hnone : flagged? before = none) (hx : x.2.primaryKey = true) :
    flagged? (before ++ [x]) = some x.1 := by
  simp only [flagged?, Option.map_eq_none_iff] at hnone
  simp [flagged?, List.find?_append, hnone, hx]

theorem flagged?_append_of_plain (hx : x.2.primaryKey = false) :
    flagged? (before ++ [x]) = flagged? before := by
  simp [flagged?, List.find?_append, hx]

theorem flagged?_eq_none_iff : flagged? attrs = none ↔ attrs.filter (·.2.primaryKey) = [] := by
  simp [flagged?, List.find?_eq_none, List.filter_eq_nil_iff]

theorem sound_nil : Sound [] := ⟨nofun, Nat.zero_le 1⟩

theorem Sound.of_append (h : Sound (before ++ rest)) : Sound before where
  typed x hx := h.typed x (List.mem_append_left rest hx)
  oneKey := by
    have hone := h.oneKey
    rw [List.filter_append, List.length_append] at hone
    omega

/-- One more attribute: it needs a scalar, and a flag only where none was before. -/
theorem sound_append_singleton : Sound (before ++ [x]) ↔ Sound before ∧
    (∃ s, StorageType.scalar x.2.type = .ok s) ∧
    (x.2.primaryKey = true → flagged? before = none) := by
  constructor
  · intro h
    refine ⟨h.of_append, h.typed x (by simp), fun hx => ?_⟩
    have hone := h.oneKey
    rw [flagged?_eq_none_iff, ← List.length_eq_zero_iff]
    simp only [List.filter_append, List.length_append, List.filter_cons, hx, ↓reduceIte,
      List.filter_nil, List.length_singleton] at hone
    omega
  · rintro ⟨hbefore, hs, hflag⟩
    constructor
    · intro y hy
      rcases List.mem_append.mp hy with hy | hy
      · exact hbefore.typed y hy
      · rw [List.mem_singleton.mp hy]
        exact hs
    · cases hx : x.2.primaryKey with
      | false => simpa [List.filter_append, hx] using hbefore.oneKey
      | true =>
        have hnone := flagged?_eq_none_iff.mp (hflag hx)
        rw [List.filter_append, hnone]
        simp [hx]

/-- An attribute offends, or it is sound to have it after those before. -/
theorem offends_or_sound (entity : String) (x : String × Attribute) (hbefore : Sound before) :
    (∃ e, Offends entity before x e) ∨ Sound (before ++ [x]) := by
  cases hs : scalarOf entity x.1 x.2.type with
  | error e => exact .inl ⟨e, offends_type hs⟩
  | ok s =>
    have htype := scalarOf_eq_ok.mp hs
    by_cases hx : x.2.primaryKey = true
    · cases hflag : flagged? before with
      | some first => exact .inl ⟨_, .secondKey htype hx hflag⟩
      | none => exact .inr (sound_append_singleton.mpr ⟨hbefore, ⟨s, htype⟩, fun _ => hflag⟩)
    · exact .inr (sound_append_singleton.mpr ⟨hbefore, ⟨s, htype⟩, fun h => absurd h hx⟩)

/-- An attribute that offends ends the reading. -/
theorem readFields_of_offends (h : Offends entity before x e) :
    readFields entity (flagged? before) (x :: rest) = .error e := by
  obtain ⟨name, a⟩ := x
  rw [readFields]
  cases h with
  | unsupported htag hnone hshown =>
    rw [scalarOf_eq_error.mpr (.inl ⟨_, _, htag, hnone, hshown, rfl⟩)]
    rfl
  | unreadable htag =>
    rw [scalarOf_eq_error.mpr (.inr htag)]
    rfl
  | secondKey htype hflag hfirst =>
    rw [scalarOf_eq_ok.mpr htype, Result.ok_bind, hfirst, show a.primaryKey = true from hflag]
    rfl

/-- The field of an attribute, by the attribute's own flag. -/
def fieldOf (x : String × Attribute) : Result Field := do
  return .ofAttribute x.1 (← StorageType.scalar x.2.type) x.2

theorem fieldOf_eq_ok {f : Field} : fieldOf x = .ok f ↔
    ∃ s, StorageType.scalar x.2.type = .ok s ∧ .ofAttribute x.1 s x.2 = f := by
  unfold fieldOf
  simp only [Result.bind_eq_ok, pure, Except.pure, Except.ok.injEq]

/-- Any other attribute is read, and then those after it. -/
theorem readFields_of_sound (entity : String) (rest : List (String × Attribute)) {f : Field}
    (h : Sound (before ++ [x])) (hf : fieldOf x = .ok f) :
    readFields entity (flagged? before) (x :: rest) =
      (do return f :: (← readFields entity (flagged? (before ++ [x])) rest)) := by
  obtain ⟨name, a⟩ := x
  obtain ⟨s, htype, rfl⟩ := fieldOf_eq_ok.mp hf
  obtain ⟨_, _, hflag⟩ := sound_append_singleton.mp h
  rw [readFields, scalarOf_eq_ok.mpr htype, Result.ok_bind]
  cases hx : a.primaryKey with
  | false => rw [flagged?_append_of_plain (x := (name, a)) hx]
  | true => rw [flagged?_append_of_flag (x := (name, a)) (hflag hx) hx, hflag hx]

/-- Sound attributes are read one after another. -/
theorem readFields_append (entity : String) (before rest : List (String × Attribute))
    {read : List (String × Attribute)} (h : Sound (before ++ read))
    (hown : read.mapM fieldOf = .ok fields) :
    readFields entity (flagged? before) (read ++ rest) =
      (do return fields ++ (← readFields entity (flagged? (before ++ read)) rest)) := by
  rw [Result.mapM_eq_ok] at hown
  induction hown generalizing before with
  | nil =>
    rw [List.append_nil, List.nil_append]
    cases readFields entity (flagged? before) rest <;> rfl
  | @cons x f read fields hf _ ih =>
    rw [List.append_cons] at h
    rw [List.cons_append, readFields_of_sound entity _ h.of_append hf, ih _ h, ← List.append_cons]
    cases readFields entity (flagged? (before ++ x :: read)) rest <;> rfl

theorem Sound.exists_fields (h : Sound attrs) : ∃ fields, attrs.mapM fieldOf = .ok fields := by
  refine Result.exists_mapM.mpr fun x hx => ?_
  obtain ⟨s, hs⟩ := h.typed x hx
  exact ⟨_, fieldOf_eq_ok.mpr ⟨s, hs, rfl⟩⟩

theorem sound_or_offends_after (entity : String) (hbefore : Sound before)
    (rest : List (String × Attribute)) :
    Sound (before ++ rest) ∨ ∃ e read x after, rest = read ++ x :: after ∧
      Sound (before ++ read) ∧ Offends entity (before ++ read) x e := by
  induction rest generalizing before with
  | nil => exact .inl (by simpa using hbefore)
  | cons x rest ih =>
    rcases offends_or_sound entity x hbefore with ⟨e, hx⟩ | hsound
    · exact .inr ⟨e, [], x, rest, rfl, by simpa using hbefore, by simpa using hx⟩
    · rcases ih hsound with hall | ⟨e, read, y, after, rfl, hread, hy⟩
      · rw [List.append_cons]
        exact .inl hall
      · rw [← List.append_cons] at hread hy
        exact .inr ⟨e, x :: read, y, after, rfl, hread, hy⟩

/-- The attributes are sound, or one of them is the first to offend. -/
theorem sound_or_offends (entity : String) (attrs : List (String × Attribute)) :
    Sound attrs ∨ ∃ e read x after, attrs = read ++ x :: after ∧ Sound read ∧
      Offends entity read x e := by
  simpa using sound_or_offends_after entity sound_nil attrs

theorem readFields_of_sound_all (h : Sound attrs) :
    readFields entity none attrs = attrs.mapM fieldOf := by
  obtain ⟨fields, hfields⟩ := h.exists_fields
  have hread := readFields_append entity [] [] h hfields
  rw [List.append_nil, readFields, Result.ok_bind, List.append_nil] at hread
  rw [hfields]
  exact hread

theorem readFields_of_first {read after : List (String × Attribute)} (hread : Sound read)
    (hx : Offends entity read x e) : readFields entity none (read ++ x :: after) = .error e := by
  obtain ⟨fields, hfields⟩ := hread.exists_fields
  have hgo := readFields_append entity [] (x :: after) hread hfields
  rw [List.nil_append, readFields_of_offends hx] at hgo
  exact hgo

/-- The reading of sound attributes gives each its field. -/
theorem readFields_eq_ok : readFields entity none attrs = .ok fields ↔
    Sound attrs ∧ attrs.mapM fieldOf = .ok fields := by
  constructor
  · intro h
    rcases sound_or_offends entity attrs with hs | ⟨e, read, x, after, rfl, hread, hx⟩
    · exact ⟨hs, readFields_of_sound_all hs ▸ h⟩
    · rw [readFields_of_first hread hx] at h
      cases h
  · rintro ⟨hs, h⟩
    rw [readFields_of_sound_all hs, h]

/-- The reading is refused at the first attribute that offends. -/
theorem readFields_eq_error : readFields entity none attrs = .error e ↔
    ∃ read x after, attrs = read ++ x :: after ∧ Sound read ∧ Offends entity read x e := by
  constructor
  · intro h
    rcases sound_or_offends entity attrs with hs | ⟨e', read, x, after, rfl, hread, hx⟩
    · obtain ⟨fields, hfields⟩ := hs.exists_fields
      rw [readFields_of_sound_all hs, hfields] at h
      cases h
    · rw [readFields_of_first hread hx] at h
      cases h
      exact ⟨read, x, after, rfl, hread, hx⟩
  · rintro ⟨read, x, after, rfl, hread, hx⟩
    exact readFields_of_first hread hx

end

end EntityApi.Model
