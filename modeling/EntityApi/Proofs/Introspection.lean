import EntityApi.Proofs.Attributes
import EntityApi.Proofs.Tables
import Mathlib.Data.List.Nodup

/-! # What a model says of its entity

After the attributes have been read, a key is settled: the flagged field, the field
`id` made a key in its place, or a new `id` in front. All three come to the same
description (`Describes`): one name is the name of the key (`keyName`), and every
attribute has the field that this name gives it. -/
namespace EntityApi.Model

/-! ## The key of the fields -/

/-- The name of the key: that of the flagged attribute, or else `id`. -/
def keyName (attrs : List (String × Attribute)) : String := (flagged? attrs).getD implicitKey

/-- The field that an attribute has in a model whose key is named `key`. -/
structure Becomes (key : String) (x : String × Attribute) (f : Field) : Prop where
  name : f.name = x.1
  scalar : StorageType.scalar x.2.type = .ok f.scalar
  primaryKey : f.primaryKey = true ↔ x.1 = key
  required : f.required = true ↔
    x.1 = key ∨ (x.2.allowNull = false ∧ x.2.defaultValue.isNull = true)
  requiredToCreate : f.requiredToCreate = true ↔ x.1 ≠ key ∧ x.2.autoIncrement = false
  updatable : f.updatable = true ↔ x.1 ≠ key

section

variable {key : String} {x : String × Attribute} {attrs : List (String × Attribute)}
  {fields own : List Field} {f k : Field} {s : Scalar}

theorem becomes_key (hs : StorageType.scalar x.2.type = .ok s) :
    Becomes x.1 x (.key x.1 s) := by
  constructor <;> simp [Field.key, hs]

theorem becomes_plain (h : fieldOf x = .ok f) (hx : x.2.primaryKey = false) (hne : x.1 ≠ key) :
    Becomes key x f := by
  obtain ⟨s, hs, rfl⟩ := fieldOf_eq_ok.mp h
  constructor <;> simp [Field.ofAttribute, hx, hs, hne]

theorem fieldOf_flagged (h : fieldOf x = .ok f) (hx : x.2.primaryKey = true) :
    f = .key x.1 f.scalar ∧ Becomes x.1 x f := by
  obtain ⟨s, hs, rfl⟩ := fieldOf_eq_ok.mp h
  have hkey : Field.ofAttribute x.1 s x.2 = .key x.1 s := by simp [Field.ofAttribute, hx]
  rw [hkey]
  exact ⟨rfl, becomes_key hs⟩

theorem names_of_becomes (h : List.Forall₂ (Becomes key) attrs own) :
    own.map Field.name = Entries.keys attrs := by
  induction h with
  | nil => rfl
  | cons hx _ ih => rw [List.map_cons, Entries.keys_cons, ih, hx.name]

/-- Settling the key leaves the fields their names. -/
theorem promote?_names {promoted : List Field} (h : promote? fields = some (k, promoted)) :
    k ∈ promoted ∧ promoted.map Field.name = fields.map Field.name := by
  induction fields generalizing promoted with
  | nil => cases h
  | cons f fields ih =>
    rw [promote?] at h
    split at h
    · cases h
      exact ⟨List.mem_cons_self, rfl⟩
    · obtain ⟨⟨k', others⟩, hothers, hcons⟩ := Option.map_eq_some_iff.mp h
      cases hcons
      obtain ⟨hk, hnames⟩ := ih hothers
      exact ⟨List.mem_cons_of_mem _ hk, by rw [List.map_cons, hnames, List.map_cons]⟩

/-- The key is one of the fields, and none has a name of its own but a new key. -/
theorem settleKey_names (fields : List Field) : (settleKey fields).1 ∈ (settleKey fields).2 ∧
    ∀ f ∈ (settleKey fields).2, f.name ∈ implicitKey :: fields.map Field.name := by
  cases hfind : fields.find? Field.primaryKey with
  | some k =>
    rw [settleKey, hfind]
    exact ⟨List.mem_of_find?_eq_some hfind,
      fun f hf => List.mem_cons_of_mem _ (List.mem_map_of_mem hf)⟩
  | none =>
    rw [settleKey, hfind]
    cases hp : promote? fields with
    | some settled =>
      obtain ⟨hk, hnames⟩ := promote?_names hp
      refine ⟨hk, fun f hf => List.mem_cons_of_mem _ ?_⟩
      rw [← hnames]
      exact List.mem_map_of_mem hf
    | none =>
      refine ⟨List.mem_cons_self, List.forall_mem_cons.mpr ⟨List.mem_cons_self, fun f hf => ?_⟩⟩
      exact List.mem_cons_of_mem _ (List.mem_map_of_mem hf)

/-- Where no attribute has the name of the key, no field is a key. -/
theorem filter_primaryKey_eq_nil (h : List.Forall₂ (Becomes key) attrs own)
    (hkey : key ∉ Entries.keys attrs) : own.filter Field.primaryKey = [] := by
  rw [List.filter_eq_nil_iff]
  intro f hf hprimary
  obtain ⟨x, hx, hb⟩ := Result.exists_of_mem_right h hf
  apply hkey
  rw [← hb.primaryKey.mp hprimary]
  exact Entries.mem_keys_of_mem hx

/-- Where just one attribute has it, just its field is. -/
theorem filter_primaryKey_eq_singleton (h : List.Forall₂ (Becomes key) attrs own)
    (hn : (Entries.keys attrs).Nodup) (hk : k ∈ own) (hprimary : k.primaryKey = true) :
    own.filter Field.primaryKey = [k] := by
  induction h with
  | nil => cases hk
  | @cons x f attrs own hx hrest ih =>
    obtain ⟨hnew, hn⟩ := List.nodup_cons.mp hn
    by_cases hxk : x.1 = key
    · have hnone := filter_primaryKey_eq_nil hrest (hxk ▸ hnew)
      rcases List.mem_cons.mp hk with rfl | hk
      · rw [List.filter_cons_of_pos hprimary, hnone]
      · -- the key is not further down
        have hmem : k ∈ own.filter Field.primaryKey := List.mem_filter.mpr ⟨hk, hprimary⟩
        rw [hnone] at hmem
        cases hmem
    · have hplain : ¬f.primaryKey = true := fun hf => hxk (hx.primaryKey.mp hf)
      rw [List.filter_cons_of_neg hplain]
      rcases List.mem_cons.mp hk with rfl | hk
      · exact absurd hprimary hplain
      · exact ih hn hk

/-- Without a flag and without an attribute `id` the fields are left as they are. -/
theorem promote?_eq_none (h : List.Forall₂ (fun x f => fieldOf x = .ok f) attrs fields)
    (hplain : ∀ x ∈ attrs, x.2.primaryKey = false) (hid : implicitKey ∉ Entries.keys attrs) :
    promote? fields = none ∧ List.Forall₂ (Becomes implicitKey) attrs fields := by
  induction h with
  | nil => exact ⟨rfl, .nil⟩
  | @cons x f attrs fields hf _ ih =>
    obtain ⟨hx, hplain⟩ := List.forall_mem_cons.mp hplain
    rw [Entries.keys_cons, List.mem_cons, not_or] at hid
    have hb := becomes_plain hf hx (Ne.symm hid.1)
    obtain ⟨hnone, hrest⟩ := ih hplain hid.2
    have hne : (f.name == implicitKey) = false := by
      rw [hb.name]
      exact beq_eq_false_iff_ne.mpr (Ne.symm hid.1)
    refine ⟨?_, .cons hb hrest⟩
    simp only [promote?, hne, Bool.false_eq_true, ↓reduceIte, hnone, Option.map_none]

/-- Without a flag the attribute `id` becomes the key in its place. -/
theorem promote?_eq_some (h : List.Forall₂ (fun x f => fieldOf x = .ok f) attrs fields)
    (hplain : ∀ x ∈ attrs, x.2.primaryKey = false) (hn : (Entries.keys attrs).Nodup)
    (hid : implicitKey ∈ Entries.keys attrs) : ∃ k own, promote? fields = some (k, own) ∧
      k = .key implicitKey k.scalar ∧ k ∈ own ∧ List.Forall₂ (Becomes implicitKey) attrs own := by
  induction h with
  | nil => cases hid
  | @cons x f attrs fields hf hrest ih =>
    obtain ⟨hx, hplain⟩ := List.forall_mem_cons.mp hplain
    obtain ⟨hnew, hn⟩ := List.nodup_cons.mp hn
    obtain ⟨s, hs, rfl⟩ := fieldOf_eq_ok.mp hf
    have hname : (Field.ofAttribute x.1 s x.2).name = x.1 := by simp [Field.ofAttribute, hx]
    have hscalar : (Field.ofAttribute x.1 s x.2).scalar = s := by simp [Field.ofAttribute, hx]
    by_cases hxid : x.1 = implicitKey
    · obtain ⟨_, hothers⟩ := promote?_eq_none hrest hplain (hxid ▸ hnew)
      refine ⟨.key x.1 s, .key x.1 s :: fields, ?_, ?_, List.mem_cons_self, ?_⟩
      · rw [promote?, if_pos (by rw [hname, hxid]; exact beq_self_eq_true _), hname, hscalar]
      · rw [hxid]
        rfl
      · exact .cons (hxid ▸ becomes_key hs) hothers
    · have hmem : implicitKey ∈ Entries.keys attrs := by
        rcases List.mem_cons.mp hid with hid | hid
        · exact absurd hid.symm hxid
        · exact hid
      obtain ⟨k, own, hp, hk, hown, hb⟩ := ih hplain hn hmem
      refine ⟨k, _, ?_, hk, List.mem_cons_of_mem _ hown, .cons (becomes_plain hf hx hxid) hb⟩
      simp only [promote?, hname, beq_eq_false_iff_ne.mpr hxid, Bool.false_eq_true, ↓reduceIte, hp,
        Option.map_some]

/-- The fields are those of the attributes, with a key of its own in front where no attribute has
the name of the key, and `k` is their only key. -/
structure Settled (attrs : List (String × Attribute)) (k : Field) (fields : List Field) : Prop where
  key : k = .key (keyName attrs) k.scalar
  oneKey : fields.filter Field.primaryKey = [k]
  fields : ∃ own, List.Forall₂ (Becomes (keyName attrs)) attrs own ∧
    ((keyName attrs ∈ Entries.keys attrs ∧ fields = own) ∨
      (keyName attrs ∉ Entries.keys attrs ∧ keyName attrs = implicitKey ∧ k.scalar = .int ∧
        fields = k :: own))

theorem Sound.eq_of_flag (hs : Sound attrs) {y : String × Attribute} (hx : x ∈ attrs)
    (hy : y ∈ attrs) (hxflag : x.2.primaryKey = true) (hyflag : y.2.primaryKey = true) : x = y := by
  have hone := hs.oneKey
  have hmx : x ∈ attrs.filter (·.2.primaryKey) := List.mem_filter.mpr ⟨hx, hxflag⟩
  have hmy : y ∈ attrs.filter (·.2.primaryKey) := List.mem_filter.mpr ⟨hy, hyflag⟩
  cases hf : attrs.filter (·.2.primaryKey) with
  | nil =>
    rw [hf] at hmx
    cases hmx
  | cons z zs =>
    rw [hf, List.length_cons] at hone
    have hnil : zs = [] := List.length_eq_zero_iff.mp (by omega)
    rw [hf, hnil, List.mem_singleton] at hmx hmy
    rw [hmx, hmy]

/-- A flagged attribute is the key. -/
theorem becomes_of_flag (hs : Sound attrs) (hn : (Entries.keys attrs).Nodup) (hx : x ∈ attrs)
    (hflag : x.2.primaryKey = true)
    (h : List.Forall₂ (fun x f => fieldOf x = .ok f) attrs fields) :
    List.Forall₂ (Becomes x.1) attrs fields := by
  have hsame : ∀ y ∈ attrs, y.2.primaryKey = true → y = x := fun y hy hyflag =>
    hs.eq_of_flag hy hx hyflag hflag
  have hname : ∀ y ∈ attrs, y.1 = x.1 → y = x := fun y hy he =>
    List.inj_on_of_nodup_map hn hy hx he
  refine ((List.forall₂_and_left attrs fields).mpr
    ⟨fun y hy => And.intro (hsame y hy) (hname y hy), h⟩).imp ?_
  rintro y f ⟨⟨hkey, hother⟩, hf⟩
  cases hy : y.2.primaryKey with
  | true =>
    rw [← hkey hy]
    exact (fieldOf_flagged hf hy).2
  | false =>
    refine becomes_plain hf hy fun he => ?_
    rw [hother he, hflag] at hy
    cases hy

theorem keyName_of_flag (h : attrs.find? (·.2.primaryKey) = some x) : keyName attrs = x.1 := by
  simp [keyName, flagged?, h]

theorem keyName_of_plain (h : ∀ x ∈ attrs, x.2.primaryKey = false) :
    keyName attrs = implicitKey := by
  have hnone : attrs.find? (·.2.primaryKey) = none := by
    rw [List.find?_eq_none]
    intro x hx
    simp [h x hx]
  simp [keyName, flagged?, hnone]

/-- The key is settled on the flagged field, on the field `id`, or on a new field in front. -/
theorem settled_settleKey (hs : Sound attrs) (hn : (Entries.keys attrs).Nodup)
    (h : List.Forall₂ (fun x f => fieldOf x = .ok f) attrs fields) :
    Settled attrs (settleKey fields).1 (settleKey fields).2 := by
  cases hfind : attrs.find? (·.2.primaryKey) with
  | some x =>
    have hx := List.mem_of_find?_eq_some hfind
    have hflag : x.2.primaryKey = true := by simpa using List.find?_some hfind
    obtain ⟨k, hk, hkx⟩ := Result.exists_of_mem_left h hx
    obtain ⟨hkey, hb⟩ := fieldOf_flagged hkx hflag
    have hbecomes := becomes_of_flag hs hn hx hflag h
    have hone := filter_primaryKey_eq_singleton hbecomes hn hk (hb.primaryKey.mpr rfl)
    have hfound : fields.find? Field.primaryKey = some k := by
      rw [← List.head?_filter, hone, List.head?_cons]
    have hsettle : settleKey fields = (k, fields) := by rw [settleKey, hfound]
    rw [hsettle]
    refine ⟨?_, hone, fields, ?_, .inl ⟨?_, rfl⟩⟩ <;> rw [keyName_of_flag hfind]
    · exact hkey
    · exact hbecomes
    · exact Entries.mem_keys_of_mem hx
  | none =>
    have hplain : ∀ x ∈ attrs, x.2.primaryKey = false := by
      simpa [List.find?_eq_none] using hfind
    have hnone : fields.find? Field.primaryKey = none := by
      rw [List.find?_eq_none]
      intro f hf
      obtain ⟨x, hx, hxf⟩ := Result.exists_of_mem_right h hf
      obtain ⟨s, _, rfl⟩ := fieldOf_eq_ok.mp hxf
      simp [Field.ofAttribute, hplain x hx]
    have hname := keyName_of_plain hplain
    by_cases hid : implicitKey ∈ Entries.keys attrs
    · obtain ⟨k, own, hp, hk, hown, hb⟩ := promote?_eq_some h hplain hn hid
      have hsettle : settleKey fields = (k, own) := by rw [settleKey, hnone, hp, Option.getD_some]
      have hprimary : k.primaryKey = true := by rw [hk]; rfl
      rw [hsettle]
      refine ⟨?_, filter_primaryKey_eq_singleton hb hn hown hprimary, own, ?_, .inl ⟨?_, rfl⟩⟩ <;>
        rw [hname]
      · exact hk
      · exact hb
      · exact hid
    · obtain ⟨hp, hb⟩ := promote?_eq_none h hplain hid
      have hsettle : settleKey fields = (.key implicitKey .int, .key implicitKey .int :: fields) := by
        rw [settleKey, hnone, hp, Option.getD_none]
      rw [hsettle]
      refine ⟨?_, ?_, fields, ?_, .inr ⟨?_, hname, rfl, rfl⟩⟩
      · rw [hname]
        rfl
      · rw [List.filter_cons_of_pos rfl, filter_primaryKey_eq_nil hb hid]
      · rw [hname]
        exact hb
      · rw [hname]
        exact hid

end

/-! ## Models of entities -/

/-- What a model says of its entity. The key is named `keyName`; it is the field of the attribute of
that name or, if there is none, a whole number in front. It is required, is no part of a creation and
is not updated, and it is the only key. -/
structure Describes (e : Entity) (m : Model) : Prop where
  name : m.name = e.name
  key : m.primaryKey = .key (keyName e.attributes) m.primaryKey.scalar
  oneKey : m.fields.filter Field.primaryKey = [m.primaryKey]
  fields : ∃ own, List.Forall₂ (Becomes (keyName e.attributes)) e.attributes own ∧
    ((keyName e.attributes ∈ Entries.keys e.attributes ∧ m.fields = own) ∨
      (keyName e.attributes ∉ Entries.keys e.attributes ∧ keyName e.attributes = implicitKey ∧
        m.primaryKey.scalar = .int ∧ m.fields = m.primaryKey :: own))
  fieldNames : m.fieldNames = if keyName e.attributes ∈ Entries.keys e.attributes
    then Entries.keys e.attributes else implicitKey :: Entries.keys e.attributes
  distinct : m.fieldNames.Nodup
  createFields : m.createFields = m.fields.filter Field.requiredToCreate
  keyless : m.primaryKey ∉ m.createFields

variable {e : Entity} {m : Model} {f : Failure}

theorem ofEntity_eq : ofEntity e = if e.name = "" then refuse .emptyEntityName else (do
    let read ← readFields e.name none e.attributes
    return ⟨e.name, (settleKey read).1, (settleKey read).2,
      (settleKey read).2.filter Field.requiredToCreate⟩) := by
  unfold ofEntity
  simp only [String.isEmpty_iff]
  split <;> rfl

theorem ofEntity_eq_error : ofEntity e = .error f ↔ (e.name = "" ∧ f = .emptyEntityName) ∨
    (e.name ≠ "" ∧ ∃ read x after, e.attributes = read ++ x :: after ∧ Sound read ∧
      Offends e.name read x f) := by
  rw [ofEntity_eq, ← readFields_eq_error]
  split
  · rename_i hname
    simp [hname, refuse, eq_comm]
  · rename_i hname
    rw [Result.bind_eq_error]
    simp [hname, pure, Except.pure]

theorem exists_ofEntity : (∃ m, ofEntity e = .ok m) ↔ e.name ≠ "" ∧ Sound e.attributes := by
  rw [ofEntity_eq]
  split
  · rename_i hname
    simp [hname]
  · rename_i hname
    simp only [Result.bind_eq_ok, readFields_eq_ok]
    constructor
    · rintro ⟨m, fields, ⟨hs, _⟩, _⟩
      exact ⟨hname, hs⟩
    · rintro ⟨_, hs⟩
      obtain ⟨fields, hfields⟩ := hs.exists_fields
      exact ⟨_, fields, ⟨hs, hfields⟩, rfl⟩

/-- The fields of a settled key have the names of the attributes. -/
theorem Settled.names {attrs : List (String × Attribute)} {k : Field} {fields : List Field}
    (h : Settled attrs k fields) : fields.map Field.name = if keyName attrs ∈ Entries.keys attrs
      then Entries.keys attrs else implicitKey :: Entries.keys attrs := by
  obtain ⟨own, hown, ⟨hmem, rfl⟩ | ⟨hmem, hname, _, rfl⟩⟩ := h.fields
  · rw [if_pos hmem, names_of_becomes hown]
  · rw [if_neg hmem, List.map_cons, names_of_becomes hown, h.key, hname]
    rfl

theorem describes_of_ofEntity (hn : (Entries.keys e.attributes).Nodup) (h : ofEntity e = .ok m) :
    Describes e m := by
  obtain ⟨hname, hs⟩ := exists_ofEntity.mp ⟨m, h⟩
  rw [ofEntity_eq, if_neg hname] at h
  obtain ⟨read, hread, h⟩ := Result.bind_eq_ok.mp h
  cases h
  have hfields := Result.mapM_eq_ok.mp (readFields_eq_ok.mp hread).2
  have hsettled := settled_settleKey hs hn hfields
  refine ⟨rfl, hsettled.key, hsettled.oneKey, hsettled.fields, hsettled.names, ?_, rfl, ?_⟩
  · show ((settleKey read).2.map Field.name).Nodup
    rw [hsettled.names]
    split
    · exact hn
    · rename_i hmem
      obtain ⟨_, _, ⟨hin, _⟩ | ⟨_, hkey, _⟩⟩ := hsettled.fields
      · exact absurd hin hmem
      · exact List.nodup_cons.mpr ⟨hkey ▸ hmem, hn⟩
  · intro hmem
    have hcreate := (List.mem_filter.mp hmem).2
    rw [hsettled.key] at hcreate
    cases hcreate

/-- **An entity makes a model, or its first offending attribute is told.** There is a model if the
entity has a name, each of its attributes a scalar and at most one of them a flag; the refusal of
any other entity is that of its first attribute that offends; and the model has one key and a field
for each attribute. -/
theorem introspection_decided (hn : (Entries.keys e.attributes).Nodup) :
    ((∃ m, ofEntity e = .ok m) ↔ e.name ≠ "" ∧ Sound e.attributes) ∧
    (∀ f, ofEntity e = .error f ↔ (e.name = "" ∧ f = .emptyEntityName) ∨
      (e.name ≠ "" ∧ ∃ read x after, e.attributes = read ++ x :: after ∧ Sound read ∧
        Offends e.name read x f)) ∧
    ∀ m, ofEntity e = .ok m → Describes e m :=
  ⟨exists_ofEntity, fun _ => ofEntity_eq_error, fun _ h => describes_of_ofEntity hn h⟩

/-- An attribute `id` without a flag is the key, in its place; a second flag is refused. -/
theorem introspection_decided_of_user :
    let age : String × Attribute := ("age", { type := .text "integer", allowNull := false })
    let id : String × Attribute := ("id", { type := .text "varchar(20)" })
    let code : String × Attribute := ("code", { type := .text "text", primaryKey := true })
    let second : String × Attribute := ("nr", { type := .text "int", primaryKey := true })
    (Entries.keys [age, id]).Nodup ∧
      (∃ m, ofEntity ⟨"User", [age, id], .null⟩ = .ok m ∧ m.primaryKey = .key "id" .string ∧
        Describes ⟨"User", [age, id], .null⟩ m) ∧
      (Entries.keys [age, code, second]).Nodup ∧
      ofEntity ⟨"User", [age, code, second], .null⟩ = .error (.manyKeys "User" "code" "nr") := by
  intro age id code second
  have hn : (Entries.keys [age, id]).Nodup := by decide
  have hn' : (Entries.keys [age, code, second]).Nodup := by decide
  have hscalar : StorageType.scalar second.2.type = .ok .int := by rfl
  obtain ⟨hmade, _, hdescribes⟩ :=
    introspection_decided (e := ⟨"User", [age, id], .null⟩) hn
  obtain ⟨_, hrefused, _⟩ :=
    introspection_decided (e := ⟨"User", [age, code, second], .null⟩) hn'
  have hsound : Sound [age, id] := by
    refine ⟨List.forall_mem_cons.mpr ⟨⟨.int, rfl⟩, List.forall_mem_singleton.mpr ⟨.string, rfl⟩⟩, ?_⟩
    decide
  have hsound' : Sound [age, code] := by
    refine ⟨List.forall_mem_cons.mpr ⟨⟨.int, rfl⟩, List.forall_mem_singleton.mpr ⟨.string, rfl⟩⟩, ?_⟩
    decide
  obtain ⟨m, hm⟩ := hmade.mpr ⟨by decide, hsound⟩
  have hkey : (ofEntity ⟨"User", [age, id], .null⟩).toOption.map Model.primaryKey =
      some (.key "id" .string) := by decide +kernel
  rw [hm] at hkey
  refine ⟨hn, ⟨m, hm, Option.some.inj hkey, hdescribes m hm⟩, hn', ?_⟩
  exact (hrefused _).mpr (.inr ⟨by decide, [age, code], second, [], rfl, hsound',
    .secondKey hscalar rfl rfl⟩)

end EntityApi.Model
