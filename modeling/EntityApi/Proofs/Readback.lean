import EntityApi.Proofs.Coverage
import EntityApi.Proofs.Introspection
import EntityApi.Proofs.Schema.Texts

/-! # A schema document tells the models that it was made of

The text of a document tells its blocks, and among these the block of each entity
and the two lines of each entity among the mutations (`Document.of_blocks`). The
block gives the fields but for three flags; which field is the key shows in the
arguments of the update, and which are required to create in those of the creation
(`model_eq`). -/
namespace EntityApi

namespace Schema

/-! ## Documents of models -/

/-- There are only characters of names in the text, and the marks between names. -/
def Spelled (s : String) : Prop :=
  ∀ c ∈ s.toList, isNameChar c = true ∨ c ∈ [':', ' ', '!', '(', ')', ',', '[', ']']

instance (s : String) : Decidable (Spelled s) := List.decidableBAll _ s.toList

theorem Spelled.oneLine {s : String} (h : Spelled s) : OneLine s :=
  fun hm => absurd (h _ hm) (by decide)

theorem IsName.isNameChar_of_mem {s : String} (h : IsName s) {c : Char} (hc : c ∈ s.toList) :
    isNameChar c = true := by
  cases hname : isNameChar c with
  | true => rfl
  | false => exact absurd hc (h.not_mem hname)

theorem IsName.spelled {s : String} (h : IsName s) : Spelled s :=
  fun _ hc => .inl (h.isNameChar_of_mem hc)

theorem spelled_append {a b : String} (ha : Spelled a) (hb : Spelled b) : Spelled (a ++ b) := by
  intro c hc
  rw [String.toList_append, List.mem_append] at hc
  exact hc.elim (ha c) (hb c)

theorem spelled_intercalate {sep : String} (hsep : Spelled sep) {texts : List String}
    (h : ∀ t ∈ texts, Spelled t) : Spelled (sep.intercalate texts) := by
  induction texts with
  | nil => simp [Spelled]
  | cons t texts ih =>
    obtain ⟨ht, htexts⟩ := List.forall_mem_cons.mp h
    by_cases hnil : texts = []
    · subst hnil
      simpa using ht
    · rw [String.intercalate_cons_of_ne_nil hnil]
      exact spelled_append (spelled_append ht hsep) (ih htexts)

theorem spelled_typed {name type : String} {required : Bool} (hn : Spelled name)
    (ht : Spelled type) : Spelled (typed name type required) := by
  intro c hm
  rcases mem_typed hm with hm | hm | hm
  · exact hn c hm
  · exact ht c hm
  · exact .inr (List.mem_append_left [_, _, _, _, _] hm)

/-- All names in the model are names. -/
structure Named (m : Model) : Prop where
  entity : IsName m.name
  key : IsName m.primaryKey.name
  fields : ∀ f ∈ m.fields, IsName f.name
  createFields : ∀ f ∈ m.createFields, IsName f.name

theorem spelled_nameFor {m : Model} (h : Named m) (op : Operation) :
    Spelled (op.nameFor m.name) := by
  have hlabel : Spelled op.label := by cases op <;> decide
  exact spelled_append (spelled_append hlabel (by decide)) h.entity.spelled

theorem spelled_argumentsOf {m : Model} (h : Named m) (op : Operation) :
    ∀ a ∈ argumentsOf m op, Spelled a.text := by
  have hfield : ∀ (f : Field) required, IsName f.name → Spelled (Argument.ofField f required).text :=
    fun f _ hf => spelled_typed hf.spelled (isName_scalar f.scalar).spelled
  cases op with
  | read => exact List.forall_mem_singleton.mpr (hfield _ _ h.key)
  | readMultiple =>
    have hlisting : ∀ a ∈ listingArguments, Spelled a.text := by decide
    exact hlisting
  | create =>
    intro a ha
    obtain ⟨f, hf, rfl⟩ := List.mem_map.mp ha
    exact hfield _ _ (h.createFields f hf)
  | update =>
    intro a ha
    obtain ⟨f, hf, rfl⟩ := List.mem_map.mp ha
    exact hfield _ _ (h.fields f hf)

theorem spelled_signature {m : Model} (h : Named m) (op : Operation) :
    Spelled (signature m op).text := by
  have hresult : Spelled (signature m op).result := by
    unfold signature
    dsimp only
    split
    · exact spelled_append h.entity.spelled (by decide)
    · exact h.entity.spelled
  unfold Signature.text
  split
  · exact spelled_append (spelled_append (spelled_nameFor h op) (by decide)) hresult
  · refine spelled_append (spelled_append (spelled_append (spelled_append (spelled_nameFor h op)
      (by decide)) ?_) (by decide)) hresult
    refine spelled_intercalate (by decide) fun t ht => ?_
    obtain ⟨a, ha, rfl⟩ := List.mem_map.mp ht
    exact spelled_argumentsOf h op a ha

theorem oneLine_append {a b : String} (ha : OneLine a) (hb : OneLine b) : OneLine (a ++ b) := by
  unfold OneLine
  rw [String.toList_append, List.mem_append]
  exact fun h => h.elim ha hb

theorem oneLine_blockLines {b : String × List String} (hname : OneLine b.1)
    (hlines : ∀ line ∈ b.2, OneLine line) : ∀ line ∈ blockLines b, OneLine line := by
  have hbody : ∀ line ∈ bodyLines b.2, OneLine line := by
    unfold bodyLines
    split
    · decide
    · intro line hline
      obtain ⟨inner, hinner, rfl⟩ := List.mem_map.mp hline
      exact oneLine_append (by decide) (hlines inner hinner)
  unfold blockLines
  refine List.forall_mem_cons.mpr ⟨?_, ?_⟩
  · exact oneLine_append (oneLine_append (by decide) hname) (by decide)
  · intro line hline
    rcases List.mem_append.mp hline with hline | hline
    · exact hbody line hline
    · have hend : ∀ line ∈ ["\x7d", ""], OneLine line := by decide
      exact hend line hline

namespace Document

/-- The document of models alone. -/
def ofModels (models : List Model) : Document :=
  ⟨models, [], generated models .query, generated models .mutation⟩

theorem assemble_nil (models : List Model) : assemble models [] = .ok (ofModels models) := rfl

theorem mem_values_generated {models : List Model} {root : Root} {line : String}
    (h : line ∈ Entries.values (generated models root)) :
    ∃ m ∈ models, ∃ op, line = (signature m op).text := by
  obtain ⟨e, he, rfl⟩ := List.mem_map.mp h
  rw [generated_eq] at he
  obtain ⟨m, hm, he⟩ := List.mem_flatMap.mp (Entries.mem_ofList he)
  rw [signatureLines_eq] at he
  obtain ⟨op, _, rfl⟩ := List.mem_map.mp he
  exact ⟨m, hm, op, rfl⟩

theorem oneLine_blocks {models : List Model} (h : ∀ m ∈ models, Named m) :
    ∀ line ∈ (ofModels models).blocks.flatMap blockLines, OneLine line := by
  have hroot : ∀ root, ∀ line ∈ Entries.values (generated models root), OneLine line := by
    intro root line hline
    obtain ⟨m, hm, op, rfl⟩ := mem_values_generated hline
    exact (spelled_signature (h m hm) op).oneLine
  have hblock : ∀ b ∈ (ofModels models).blocks, OneLine b.1 ∧ ∀ line ∈ b.2, OneLine line := by
    intro b hb
    unfold blocks at hb
    rcases List.mem_append.mp hb with hb | hb
    · obtain ⟨m, hm, hb⟩ := List.mem_flatMap.mp hb
      have hentity := (h m hm).entity.spelled.oneLine
      simp only [List.mem_cons, List.not_mem_nil, or_false] at hb
      rcases hb with rfl | rfl
      · refine ⟨hentity, fun line hline => ?_⟩
        obtain ⟨f, hf, rfl⟩ := List.mem_map.mp hline
        exact (spelled_typed ((h m hm).fields f hf).spelled (isName_scalar f.scalar).spelled).oneLine
      · refine ⟨oneLine_append hentity (by decide), ?_⟩
        refine List.forall_mem_cons.mpr ⟨by decide, List.forall_mem_singleton.mpr ?_⟩
        exact oneLine_append (oneLine_append (by decide) hentity) (by decide)
    · rcases List.mem_cons.mp hb with rfl | hb
      · exact ⟨show OneLine "Query" by decide, hroot .query⟩
      · split at hb
        · cases hb
        · rw [List.mem_singleton.mp hb]
          exact ⟨show OneLine "Mutation" by decide, hroot .mutation⟩
  intro line hline
  obtain ⟨b, hb, hline⟩ := List.mem_flatMap.mp hline
  exact oneLine_blockLines (hblock b hb).1 (hblock b hb).2 line hline

/-- The mutations are listed model by model. -/
theorem values_mutation {models : List Model} (hn : (models.map Model.name).Nodup) :
    Entries.values (generated models .mutation) =
      models.flatMap fun m => [(signature m .create).text, (signature m .update).text] := by
  have hkeys : (Entries.keys (models.flatMap (signatureLines · .mutation))).Nodup := by
    rw [keys_signatureLines]
    exact Operation.nodup_mutations hn
  rw [generated_eq, Entries.ofList_eq_self hkeys, Entries.values, List.map_flatMap]
  exact List.flatMap_congr fun m _ => by rw [signatureLines_eq]; rfl

/-- The texts of the two mutations of a model. -/
def mutationTexts (m : Model) : String × String :=
  ((signature m .create).text, (signature m .update).text)

theorem blocks_ofModels {models : List Model} (hn : (models.map Model.name).Nodup) :
    (ofModels models).blocks = (models.map typeBlock).flatMap (fun b => [b, pageBlock b.1]) ++
      ("Query", Entries.values (generated models .query)) ::
      (if models = [] then []
        else [("Mutation", (models.map mutationTexts).flatMap fun p => [p.1, p.2])]) := by
  have hempty : (generated models .mutation).isEmpty = decide (models = []) := by
    rw [← List.isEmpty_map (f := Prod.snd)]
    show (Entries.values _).isEmpty = _
    rw [values_mutation hn]
    cases models <;> rfl
  unfold blocks ofModels
  dsimp only
  rw [hempty, values_mutation hn, List.flatMap_map, List.flatMap_map]
  simp only [decide_eq_true_eq]
  rfl

/-- What the blocks of a document of models tell about the models. -/
theorem of_blocks {models models' : List Model} (hn : (models.map Model.name).Nodup)
    (hn' : (models'.map Model.name).Nodup)
    (h : (ofModels models).blocks = (ofModels models').blocks) :
    models.map typeBlock = models'.map typeBlock ∧
      models.map mutationTexts = models'.map mutationTexts := by
  have htypes : Text.Code (fun _ => True) fun b : String × List String => [b, pageBlock b.1] :=
    .two fun _ _ hb _ => hb
  have hmutations : Text.Code (fun _ => True) fun p : String × String => [p.1, p.2] :=
    .two fun _ _ => Prod.ext
  rw [blocks_ofModels hn, blocks_ofModels hn'] at h
  by_cases hnil : models = []
  · by_cases hnil' : models' = []
    · rw [hnil, hnil']
      exact ⟨rfl, rfl⟩
    · obtain ⟨m, rest, rfl⟩ := List.exists_cons_of_ne_nil hnil'
      simp [hnil] at h
  · by_cases hnil' : models' = []
    · obtain ⟨m, rest, rfl⟩ := List.exists_cons_of_ne_nil hnil
      simp [hnil'] at h
    · rw [if_neg hnil, if_neg hnil'] at h
      obtain ⟨hfirst, hlast⟩ := List.append_inj' h rfl
      refine ⟨htypes.flatMap_inj (fun _ _ => trivial) (fun _ _ => trivial) hfirst, ?_⟩
      simp only [List.cons.injEq, Prod.mk.injEq, true_and, and_true] at hlast
      exact hmutations.flatMap_inj (fun _ _ => trivial) (fun _ _ => trivial) hlast.2

end Document

/-! ## One model -/

/-- What is said of a field in several places of the model agrees. -/
structure Coherent (m : Model) : Prop where
  named : Named m
  distinct : m.fieldNames.Nodup
  oneKey : m.fields.filter Field.primaryKey = [m.primaryKey]
  updatable : ∀ f ∈ m.fields, f.updatable = !f.primaryKey
  createFields : m.createFields = m.fields.filter Field.requiredToCreate

theorem named_of_ofEntity {e : Entity} {m : Model} (h : Model.ofEntity e = .ok m)
    (hname : IsName e.name) (hattrs : ∀ a ∈ Entries.keys e.attributes, IsName a) : Named m := by
  obtain ⟨hne, _⟩ := Model.exists_ofEntity.mp ⟨m, h⟩
  rw [Model.ofEntity_eq, if_neg hne] at h
  obtain ⟨fields, hfields, h⟩ := Result.bind_eq_ok.mp h
  cases h
  have hread := Result.mapM_eq_ok.mp (Model.readFields_eq_ok.mp hfields).2
  obtain ⟨hkey, hsettled⟩ := Model.settleKey_names fields
  have hnames : ∀ f ∈ (Model.settleKey fields).2, IsName f.name := by
    intro f hf
    rcases List.mem_cons.mp (hsettled f hf) with hid | hmem
    · rw [hid]
      exact isName_implicitKey
    · obtain ⟨g, hg, hgf⟩ := List.mem_map.mp hmem
      obtain ⟨x, hx, hxg⟩ := Result.exists_of_mem_right hread hg
      obtain ⟨s, _, rfl⟩ := Model.fieldOf_eq_ok.mp hxg
      have hown : (Field.ofAttribute x.1 s x.2).name = x.1 := by
        unfold Field.ofAttribute
        split <;> rfl
      rw [← hgf, hown]
      exact hattrs _ (Entries.mem_keys_of_mem hx)
  exact ⟨hname, hnames _ hkey, hnames, fun f hf => hnames f (List.mem_filter.mp hf).1⟩

theorem coherent_of_describes {e : Entity} {m : Model} (h : Model.Describes e m)
    (hnamed : Named m) : Coherent m := by
  refine ⟨hnamed, h.distinct, h.oneKey, ?_, h.createFields⟩
  have hown : ∀ x f, Model.Becomes (Model.keyName e.attributes) x f →
      f.updatable = !f.primaryKey := by
    intro x f hb
    have hkey := hb.primaryKey
    have hupdatable := hb.updatable
    rw [Bool.eq_iff_iff, hupdatable, Bool.not_eq_true', ← Bool.not_eq_true, hkey]
  obtain ⟨own, hall, ⟨_, hfields⟩ | ⟨_, _, _, hfields⟩⟩ := h.fields
  · intro f hf
    obtain ⟨x, _, hb⟩ := Result.exists_of_mem_right hall (hfields ▸ hf)
    exact hown x f hb
  · rw [hfields]
    refine List.forall_mem_cons.mpr ⟨?_, fun f hf => ?_⟩
    · rw [h.key]
      rfl
    · obtain ⟨x, _, hb⟩ := Result.exists_of_mem_right hall hf
      exact hown x f hb

/-- Whether a field is required to create shows in the names of the creation's arguments. -/
theorem Coherent.mem_createFields {m : Model} (h : Coherent m) {f : Field} (hf : f ∈ m.fields) :
    f.requiredToCreate = true ↔ f.name ∈ m.createFields.map Field.name := by
  rw [h.createFields, List.mem_map]
  constructor
  · intro hr
    exact ⟨f, List.mem_filter.mpr ⟨hf, hr⟩, rfl⟩
  · rintro ⟨g, hg, hname⟩
    obtain ⟨hg, hr⟩ := List.mem_filter.mp hg
    rwa [← List.inj_on_of_nodup_map h.distinct hg hf hname]

/-- The block of a model and the texts of its mutations tell the model. -/
theorem model_eq {m m' : Model} (h : Coherent m) (h' : Coherent m')
    (htypes : typeBlock m = typeBlock m')
    (hmutations : Document.mutationTexts m = Document.mutationTexts m') : m = m' := by
  obtain ⟨hname, hdeclared⟩ := Prod.mk.inj htypes
  obtain ⟨hcreate, hupdate⟩ := Prod.mk.inj hmutations
  have hcreations : argumentsOf m .create = argumentsOf m' .create := by
    refine Signature.text_inj (congrArg (Operation.nameFor .create) hname) hname ?_ ?_ hcreate
    · exact List.forall_mem_map.mpr fun f hf => Argument.plain_ofField (h.named.createFields f hf) _
    · exact List.forall_mem_map.mpr fun f hf => Argument.plain_ofField (h'.named.createFields f hf) _
  have hupdates : argumentsOf m .update = argumentsOf m' .update := by
    refine Signature.text_inj (congrArg (Operation.nameFor .update) hname) hname ?_ ?_ hupdate
    · exact List.forall_mem_map.mpr fun f hf => Argument.plain_ofField (h.named.fields f hf) _
    · exact List.forall_mem_map.mpr fun f hf => Argument.plain_ofField (h'.named.fields f hf) _
  have hcreateNames : m.createFields.map Field.name = m'.createFields.map Field.name := by
    have hnames := congrArg (List.map Argument.name) hcreations
    simpa [argumentsOf, Argument.ofField, Function.comp_def] using hnames
  have hfield : ∀ f ∈ m.fields, ∀ f' ∈ m'.fields, f.declared = f'.declared →
      f.primaryKey = f'.primaryKey → f = f' := by
    intro f hf f' hf' hd hk
    obtain ⟨hn, hs, hr⟩ := declared_inj (h.named.fields f hf) (h'.named.fields f' hf') hd
    have hc : f.requiredToCreate = f'.requiredToCreate := by
      rw [Bool.eq_iff_iff, h.mem_createFields hf, h'.mem_createFields hf', hn, hcreateNames]
    have hu : f.updatable = f'.updatable := by rw [h.updatable f hf, h'.updatable f' hf', hk]
    cases f
    cases f'
    simp_all
  have hfields : m.fields = m'.fields := by
    refine Text.eq_of_maps (fun f hf f' hf' hd hk => ?_) hdeclared hupdates
    exact hfield f hf f' hf' hd (congrArg Argument.required hk)
  have hkey : m.primaryKey = m'.primaryKey := by
    have hkeys := h.oneKey
    rw [hfields, h'.oneKey] at hkeys
    exact (List.cons.inj hkeys).1.symm
  have hcreateFields : m.createFields = m'.createFields := by
    rw [h.createFields, h'.createFields, hfields]
  cases m
  cases m'
  simp_all

/-! ## All models -/

/-- The models are those of entities as they can be declared: with distinct names, and with
attributes of distinct names, all of which are names of the schema language. -/
structure Declared (entities : List Entity) (models : List Model) : Prop where
  models : entities.mapM Model.ofEntity = .ok models
  names : (entities.map Entity.name).Nodup
  attributes : ∀ e ∈ entities, (Entries.keys e.attributes).Nodup
  valid : ∀ e ∈ entities, IsName e.name ∧ ∀ a ∈ Entries.keys e.attributes, IsName a

theorem Declared.coherent {entities : List Entity} {models : List Model}
    (h : Declared entities models) : ∀ m ∈ models, Coherent m := by
  intro m hm
  obtain ⟨e, he, hem⟩ := Result.exists_of_mem_right (Result.mapM_eq_ok.mp h.models) hm
  obtain ⟨hname, hattrs⟩ := h.valid e he
  exact coherent_of_describes (Model.describes_of_ofEntity (h.attributes e he) hem)
    (named_of_ofEntity hem hname hattrs)

/-- **A schema document tells the models that it was made of.** Two lists of models of declared
entities have the same document, without extensions, just if they are the same in all their fields
and flags, even if names of operations clash. -/
theorem document_determines_models {entities entities' : List Entity} {models models' : List Model}
    (h : Declared entities models) (h' : Declared entities' models') :
    ∃ d d', Document.assemble models [] = .ok d ∧ Document.assemble models' [] = .ok d' ∧
      (d.render = d'.render ↔ models = models') := by
  refine ⟨_, _, Document.assemble_nil models, Document.assemble_nil models', ?_, ?_⟩
  · intro hrender
    have hn : (models.map Model.name).Nodup := by rw [Api.names_of_models h.models]; exact h.names
    have hn' : (models'.map Model.name).Nodup := by rw [Api.names_of_models h'.models]; exact h'.names
    have hblocks := Document.blocks_of_render rfl rfl
      (Document.oneLine_blocks fun m hm => (h.coherent m hm).named)
      (Document.oneLine_blocks fun m hm => (h'.coherent m hm).named) hrender
    obtain ⟨htypes, hmutations⟩ := Document.of_blocks hn hn' hblocks
    refine Text.eq_of_maps (fun m hm m' hm' => ?_) htypes hmutations
    exact model_eq (h.coherent m hm) (h'.coherent m' hm')
  · rintro rfl
    rfl

/-- Two declarations of one entity that differ in what a creation takes. -/
theorem document_determines_models_of_users :
    let age : Attribute := { type := .text "integer" }
    let user (age : Attribute) : Entity := ⟨"User", [("age", age)], .null⟩
    let model (created : List Field) : Model := ⟨"User", .key "id" .int, [.key "id" .int,
      ⟨"age", .int, false, !created.isEmpty, true, false⟩], created⟩
    let models := [model [⟨"age", .int, false, true, true, false⟩]]
    Declared [user age] models ∧ Declared [user { age with autoIncrement := true }] [model []] ∧
      ∃ d d', Document.assemble models [] = .ok d ∧ Document.assemble [model []] [] = .ok d' ∧
        d.render ≠ d'.render := by
  intro age user model models
  have huser : IsName "User" := ⟨_, _, rfl, by decide, by decide⟩
  have hage : IsName "age" := ⟨_, _, rfl, by decide, by decide⟩
  have hvalid : ∀ a, ∀ e ∈ [user a], IsName e.name ∧ ∀ n ∈ Entries.keys e.attributes, IsName n :=
    fun a => List.forall_mem_singleton.mpr ⟨huser, List.forall_mem_singleton.mpr hage⟩
  have hdistinct : ∀ a, ∀ e ∈ [user a], (Entries.keys e.attributes).Nodup :=
    fun a => List.forall_mem_singleton.mpr (List.nodup_singleton _)
  have h : Declared [user age] models := ⟨rfl, List.nodup_singleton _, hdistinct _, hvalid _⟩
  have h' : Declared [user { age with autoIncrement := true }] [model []] :=
    ⟨rfl, List.nodup_singleton _, hdistinct _, hvalid _⟩
  obtain ⟨d, d', hd, hd', hiff⟩ := document_determines_models h h'
  exact ⟨h, h', d, d', hd, hd', fun hrender => absurd (hiff.mp hrender) (by decide)⟩

end Schema

end EntityApi
