import EntityApi.Proofs.Acceptance
import EntityApi.Proofs.Introspection
import EntityApi.Proofs.Steps
import EntityApi.Proofs.Text.Blanks
import Mathlib.Data.List.Nodup
import Mathlib.Data.List.Sort

/-! # Which interfaces are built, and what the others are refused for

Building goes through its inputs in passes: the names of the entities, whether
there is anything to serve, the models, the signatures of the extensions, the
stores. A pass looks at all of its inputs before the next one starts, so that the
first pass with a fault decides, and in it the first input (`Refused`). Every
outcome is told by that, refusals (`build_eq_error`) and successes
(`exists_build`) alike. Tables of custom resolvers come last and, where their
sections are tables, are never refused (`CustomResolvers.exists_ofMap`). -/
namespace EntityApi

namespace Schema

variable {root : Root} {extensions : List Extension} {line : String} {e : Failure}

/-- The line begins with no name. -/
def Nameless (line : String) : Prop :=
  ∀ c, (Text.trimLeft line.toList).head? = some c → isNameStart c = false

theorem signatureName_eq_error :
    signatureName line = .error e ↔ Nameless line ∧ e = .unnamedSignature line := by
  unfold signatureName Nameless
  cases Text.trimLeft line.toList with
  | nil =>
    simp only [takeName, refuse, Except.error.injEq, List.head?_nil, reduceCtorEq,
      false_implies, implies_true, true_and]
    exact eq_comm
  | cons c rest =>
    cases hc : isNameStart c with
    | true => simp [takeName, hc]
    | false =>
      simp only [takeName, hc, Bool.false_eq_true, ↓reduceIte, refuse, Except.error.injEq,
        List.head?_cons, Option.some.injEq, forall_eq', true_and]
      exact eq_comm

theorem named_eq_error : named line = .error e ↔ Nameless line ∧ e = .unnamedSignature line := by
  unfold named
  rw [Result.bind_eq_error, signatureName_eq_error]
  simp [pure, Except.pure]

theorem firstRefused_named {lines : List String} : Result.FirstRefused named lines e ↔
    ∃ line, Result.FirstOf Nameless lines line ∧ e = .unnamedSignature line :=
  Result.firstRefused_iff_firstOf fun _ _ => named_eq_error

/-- The signature lines of all extensions under a root type. -/
def linesUnder (root : Root) (extensions : List Extension) : List String :=
  extensions.flatMap (·.signatures root)

/-- Merging is refused at the first line without a name. -/
theorem mergeSignatures_eq_error {lines : List (String × String)} :
    mergeSignatures root lines extensions = .error e ↔
      Result.FirstRefused named (linesUnder root extensions) e := by
  induction extensions generalizing lines with
  | nil => simp [mergeSignatures, linesUnder, Result.not_firstRefused_nil]
  | cons ext extensions ih =>
    rw [mergeSignatures, Result.bind_eq_error, Result.mapM_eq_error, linesUnder, List.flatMap_cons,
      Result.firstRefused_append, ← Result.exists_mapM]
    refine or_congr Iff.rfl ?_
    simp only [ih, exists_and_right]
    rfl

/-- All lines of the extensions, those of queries before those of mutations. -/
def allLines (extensions : List Extension) : List String :=
  linesUnder .query extensions ++ linesUnder .mutation extensions

/-- Assembling is refused at the first of all lines that has no name. -/
theorem assemble_eq_error {models : List Model} : Document.assemble models extensions = .error e ↔
    Result.FirstRefused named (allLines extensions) e := by
  have hquery : (∃ merged, mergeSignatures .query (Document.generated models .query) extensions =
      .ok merged) ↔ ∀ line ∈ linesUnder .query extensions, ∃ n, named line = .ok n :=
    Result.exists_ok_of_firstRefused fun _ => mergeSignatures_eq_error
  unfold Document.assemble allLines
  rw [Result.bind_eq_error, mergeSignatures_eq_error, Result.firstRefused_append]
  refine or_congr Iff.rfl ?_
  simp only [Result.bind_eq_error, mergeSignatures_eq_error]
  simp only [pure, Except.pure, reduceCtorEq, and_false, exists_false, or_false, exists_and_right]
  exact and_congr hquery Iff.rfl

end Schema

theorem Model.ofEntity_ne_duplicateEntities {x : Entity} {names : List String} :
    Model.ofEntity x ≠ .error (.duplicateEntities names) := by
  rw [ne_eq, Model.ofEntity_eq_error]
  rintro (⟨_, h⟩ | ⟨_, before, a, after, _, _, h⟩)
  · cases h
  · cases h with
    | unreadable htag =>
      obtain ⟨text, h⟩ := Model.tagOf_eq_error htag
      cases h

namespace Api

variable {σ : Type} {entities : List Entity} {supply : Supply σ}
  {extensions : List Schema.Extension} {custom : List CustomResolvers} {largest : Value}
  {e : Failure}

/-! ## Repeated names -/

/-- Repeated names are told once each, in order. -/
theorem sorted_repeatedNames (names : List String) :
    (repeatedNames names).Pairwise (· < ·) :=
  Entries.pairwise_lt_mergeSort (Entries.nodup_eraseDups _)

/-! ## The passes -/

/-- There is nothing to serve: no entity, and nothing but blanks in the queries of the extensions. -/
def Idle (entities : List Entity) (extensions : List Schema.Extension) : Prop :=
  entities = [] ∧ ∀ ext ∈ extensions, ∀ block ∈ [ext.read, ext.readMultiple],
    ∀ line ∈ Text.lines block, ∀ c ∈ line.toList, Text.isBlank c = true

theorem linesOf_eq_nil_iff {block : String} : Schema.Extension.linesOf block = [] ↔
    ∀ line ∈ Text.lines block, ∀ c ∈ line.toList, Text.isBlank c = true := by
  unfold Schema.Extension.linesOf
  simp [List.filter_eq_nil_iff, Text.trim_eq_empty_iff]

theorem idle_iff : (entities.isEmpty && extensions.all fun ext => (ext.signatures .query).isEmpty) =
    true ↔ Idle entities extensions := by
  unfold Idle Schema.Extension.signatures Schema.Extension.blocks
  simp only [Bool.and_eq_true, List.isEmpty_iff, List.all_eq_true, List.flatMap_eq_nil_iff,
    linesOf_eq_nil_iff]

theorem build_eq_error_of_generate : build entities supply extensions custom largest = .error e ↔
    generate entities supply extensions largest = .error e := by
  unfold build
  rw [Result.bind_eq_error]
  simp [pure, Except.pure]

theorem bind_eq_mapM (pairs : List (Entity × Model)) : bind supply pairs =
    pairs.mapM fun p => do return ⟨p.2, ← supply.storeFor p.1 p.2⟩ := by
  induction pairs with
  | nil => rfl
  | cons p pairs ih =>
    rw [bind, List.mapM_cons, ih]
    cases supply.storeFor p.1 p.2 <;> rfl

/-- Binding is refused at the first entity for which there is no store. -/
theorem bind_eq_error {pairs : List (Entity × Model)} : bind supply pairs = .error e ↔
    Result.FirstRefused (fun p => supply.storeFor p.1 p.2) pairs e := by
  rw [bind_eq_mapM, Result.mapM_eq_error]
  apply Result.firstRefused_congr
  intro p e
  rw [Result.bind_eq_error]
  simp [pure, Except.pure]

theorem storeFor_table (stores : List (String × σ)) (x : Entity) (m : Model) :
    (Supply.table stores).storeFor x m =
      (Entries.get? stores x.name).elim (refuse (.noAccess x.name)) .ok := by
  unfold Supply.storeFor
  cases h : Entries.get? stores x.name <;> simp only [h] <;> rfl

/-- From a table, that is the first entity that the table has no store for. -/
theorem bind_table_eq_error {stores : List (String × σ)} {models : List Model}
    (hlen : entities.length = models.length) :
    bind (.table stores) (entities.zip models) = .error e ↔
      ∃ x, Result.FirstOf (fun x : Entity => x.name ∉ Entries.keys stores) entities x ∧
        e = .noAccess x.name := by
  let look (x : Entity) : Result σ :=
    (Entries.get? stores x.name).elim (refuse (.noAccess x.name)) .ok
  have hlook : ∀ x e, look x = .error e ↔ x.name ∉ Entries.keys stores ∧ e = .noAccess x.name := by
    intro x e
    rw [← Entries.get?_eq_none_iff]
    show (Entries.get? stores x.name).elim (refuse (.noAccess x.name)) Except.ok = _ ↔ _
    cases Entries.get? stores x.name with
    | some store => simp
    | none =>
      simp only [Option.elim_none, refuse, Except.error.injEq, true_and]
      exact eq_comm
  have hzip : Result.FirstRefused look ((entities.zip models).map Prod.fst) e ↔ _ :=
    Result.firstRefused_map
  rw [List.map_fst_zip (Nat.le_of_eq hlen)] at hzip
  rw [bind_eq_error, ← Result.firstRefused_iff_firstOf hlook, hzip]
  simp only [storeFor_table]
  rfl

/-! ## Outcomes -/

/-- The names of the entities are distinct and there is something to serve. -/
structure Served (entities : List Entity) (extensions : List Schema.Extension) : Prop where
  names : (entities.map Entity.name).Nodup
  busy : ¬Idle entities extensions

/-- Also, every entity makes a model. -/
structure Modelled (entities : List Entity) (extensions : List Schema.Extension) : Prop
    extends Served entities extensions where
  models : ∀ x ∈ entities, ∃ m, Model.ofEntity x = .ok m

/-- Also, every line of the extensions has a name. -/
structure Signed (entities : List Entity) (extensions : List Schema.Extension) : Prop
    extends Modelled entities extensions where
  lines : ∀ line ∈ Schema.allLines extensions, ¬Schema.Nameless line

/-- Also, there is a store for every entity: nothing is wrong. -/
structure Accepted (entities : List Entity) (supply : Supply σ)
    (extensions : List Schema.Extension) : Prop extends Signed entities extensions where
  stores : ∀ x ∈ entities, ∀ m, Model.ofEntity x = .ok m → ∃ s, supply.storeFor x m = .ok s

/-- The names are those that occur more than once, each once and in order, and there are such. -/
structure Repeats (entities : List Entity) (names : List String) : Prop where
  some : names ≠ []
  sorted : names.Pairwise (· < ·)
  mem : ∀ n, n ∈ names ↔ 2 ≤ (entities.map Entity.name).count n

/-- What an interface is refused for. A cause counts only where none of those above it does. -/
inductive Refused (entities : List Entity) (supply : Supply σ)
    (extensions : List Schema.Extension) : Failure → Prop
  | repeated {names : List String} (hrepeats : Repeats entities names) :
      Refused entities supply extensions (.duplicateEntities names)
  | idle (hnames : (entities.map Entity.name).Nodup) (hidle : Idle entities extensions) :
      Refused entities supply extensions .nothingToServe
  | entity {e : Failure} (hserved : Served entities extensions)
      (hfirst : Result.FirstRefused Model.ofEntity entities e) :
      Refused entities supply extensions e
  | line {line : String} (hmodelled : Modelled entities extensions)
      (hfirst : Result.FirstOf Schema.Nameless (Schema.allLines extensions) line) :
      Refused entities supply extensions (.unnamedSignature line)
  | noStore {stores : List (String × σ)} {x : Entity} (hsigned : Signed entities extensions)
      (hsupply : supply = .table stores)
      (hfirst : Result.FirstOf (fun x : Entity => x.name ∉ Entries.keys stores) entities x) :
      Refused entities supply extensions (.noAccess x.name)
  | notMade {make : Entity → Model → Result σ} {models : List Model} {e : Failure}
      (hsigned : Signed entities extensions) (hsupply : supply = .maker make)
      (hmodels : entities.mapM Model.ofEntity = .ok models)
      (hfirst : Result.FirstRefused (fun p => make p.1 p.2) (entities.zip models) e) :
      Refused entities supply extensions e

theorem repeats_iff {names : List String} : Repeats entities names ↔
    ¬(entities.map Entity.name).Nodup ∧ names = repeatedNames (entities.map Entity.name) := by
  constructor
  · intro h
    have hnames : names = repeatedNames (entities.map Entity.name) :=
      h.sorted.eq_of_mem_iff (sorted_repeatedNames _) fun n => by rw [h.mem, mem_repeatedNames]
    refine ⟨fun hn => h.some ?_, hnames⟩
    rw [hnames, repeatedNames_eq_nil_iff]
    exact hn
  · rintro ⟨hn, rfl⟩
    exact ⟨fun hnil => hn (repeatedNames_eq_nil_iff.mp hnil), sorted_repeatedNames _,
      fun n => mem_repeatedNames⟩

theorem generate_eq_error : generate entities supply extensions largest = .error e ↔
    (¬(entities.map Entity.name).Nodup ∧
      e = .duplicateEntities (repeatedNames (entities.map Entity.name))) ∨
    ((entities.map Entity.name).Nodup ∧ Idle entities extensions ∧ e = .nothingToServe) ∨
    (Served entities extensions ∧ (entities.mapM Model.ofEntity = .error e ∨
      ∃ models, entities.mapM Model.ofEntity = .ok models ∧
        (Schema.Document.assemble models extensions = .error e ∨
          (∃ d, Schema.Document.assemble models extensions = .ok d) ∧
            bind supply (entities.zip models) = .error e))) := by
  rw [generate_eq]
  by_cases hn : (entities.map Entity.name).Nodup
  · by_cases hi : Idle entities extensions
    · have hnot : ¬Served entities extensions := fun h => h.busy hi
      rw [if_neg (not_not_intro hn), if_pos (idle_iff.mpr hi)]
      simp only [refuse, Except.error.injEq, hn, not_true, false_and, hi, true_and, hnot, or_false,
        false_or]
      exact eq_comm
    · have hserved : Served entities extensions := ⟨hn, hi⟩
      rw [if_neg (not_not_intro hn), if_neg (fun h => hi (idle_iff.mp h))]
      simp only [hn, not_true, false_and, hi, true_and, hserved, and_false, false_or,
        Result.bind_eq_error]
      simp only [pure, Except.pure, reduceCtorEq, and_false, exists_false, or_false, exists_and_right]
  · have hnot : ¬Served entities extensions := fun h => hn h.names
    rw [if_pos hn]
    simp only [refuse, Except.error.injEq, hn, not_false_eq_true, true_and, false_and, hnot, or_false]
    exact eq_comm

/-- What the last pass refuses. -/
theorem refused_for_store {models : List Model} (hsigned : Signed entities extensions)
    (hm : entities.mapM Model.ofEntity = .ok models)
    (hb : bind supply (entities.zip models) = .error e) : Refused entities supply extensions e := by
  cases hsupply : supply with
  | table stores =>
    rw [hsupply, bind_table_eq_error (length_models hm)] at hb
    obtain ⟨x, hfirst, rfl⟩ := hb
    exact .noStore hsigned rfl hfirst
  | maker make =>
    rw [hsupply, bind_eq_error] at hb
    exact .notMade hsigned rfl hm hb

/-- There is a document if there is a name on every line. -/
theorem exists_assemble (models : List Model) :
    (∃ d, Schema.Document.assemble models extensions = .ok d) ↔
      ∀ line ∈ Schema.allLines extensions, ¬Schema.Nameless line := by
  rw [Result.exists_ok_of_firstRefused fun _ => Schema.assemble_eq_error]
  exact forall₂_congr fun line _ =>
    Result.isOk_iff_of_eq_error (fun _ _ => Schema.named_eq_error) line

theorem build_eq_error : build entities supply extensions custom largest = .error e ↔
    Refused entities supply extensions e := by
  rw [build_eq_error_of_generate, generate_eq_error]
  constructor
  · rintro (⟨hn, rfl⟩ | ⟨hn, hi, rfl⟩ | ⟨hserved, hm | ⟨models, hm, hd | ⟨hd, hb⟩⟩⟩)
    · exact .repeated (repeats_iff.mpr ⟨hn, rfl⟩)
    · exact .idle hn hi
    · exact .entity hserved (Result.mapM_eq_error.mp hm)
    · have hmodelled : Modelled entities extensions := ⟨hserved, Result.exists_mapM.mp ⟨_, hm⟩⟩
      rw [Schema.assemble_eq_error, Schema.firstRefused_named] at hd
      obtain ⟨line, hfirst, rfl⟩ := hd
      exact .line hmodelled hfirst
    · have hmodelled : Modelled entities extensions := ⟨hserved, Result.exists_mapM.mp ⟨_, hm⟩⟩
      exact refused_for_store ⟨hmodelled, (exists_assemble models).mp hd⟩ hm hb
  · intro h
    cases h with
    | repeated hrepeats =>
      obtain ⟨hn, rfl⟩ := repeats_iff.mp hrepeats
      exact .inl ⟨hn, rfl⟩
    | idle hnames hidle => exact .inr (.inl ⟨hnames, hidle, rfl⟩)
    | entity hserved hfirst => exact .inr (.inr ⟨hserved, .inl (Result.mapM_eq_error.mpr hfirst)⟩)
    | line hmodelled hfirst =>
      obtain ⟨models, hm⟩ := Result.exists_mapM.mpr hmodelled.models
      refine .inr (.inr ⟨hmodelled.toServed, .inr ⟨models, hm, .inl ?_⟩⟩)
      rw [Schema.assemble_eq_error, Schema.firstRefused_named]
      exact ⟨_, hfirst, rfl⟩
    | noStore hsigned hsupply hfirst =>
      obtain ⟨models, hm⟩ := Result.exists_mapM.mpr hsigned.models
      have hd := (exists_assemble models).mpr hsigned.lines
      refine .inr (.inr ⟨hsigned.toServed, .inr ⟨models, hm, .inr ⟨hd, ?_⟩⟩⟩)
      rw [hsupply, bind_table_eq_error (length_models hm)]
      exact ⟨_, hfirst, rfl⟩
    | @notMade make models _ hsigned hsupply hm hfirst =>
      have hd := (exists_assemble models).mpr hsigned.lines
      refine .inr (.inr ⟨hsigned.toServed, .inr ⟨models, hm, .inr ⟨hd, ?_⟩⟩⟩)
      rw [hsupply, bind_eq_error]
      exact hfirst

theorem exists_bind {pairs : List (Entity × Model)} :
    (∃ bindings, bind supply pairs = .ok bindings) ↔ ∀ p ∈ pairs, ∃ s, supply.storeFor p.1 p.2 = .ok s :=
  Result.exists_ok_of_firstRefused fun _ => bind_eq_error

/-- The pairs that are bound are the entities with their models. -/
theorem mem_zip_models {models : List Model} (hm : entities.mapM Model.ofEntity = .ok models)
    {x : Entity} {m : Model} :
    (x, m) ∈ entities.zip models ↔ x ∈ entities ∧ Model.ofEntity x = .ok m := by
  have hall := Result.mapM_eq_ok.mp hm
  constructor
  · intro hp
    exact ⟨(List.of_mem_zip hp).1, List.forall₂_zip hall hp⟩
  · rintro ⟨hx, hxm⟩
    obtain ⟨i, hi⟩ := List.mem_iff_getElem?.mp hx
    obtain ⟨m', hm', hxm'⟩ := Result.getElem?_of_forall₂ hall hi
    obtain rfl := Except.ok.inj (hxm.symm.trans hxm')
    exact List.mem_of_getElem? (List.getElem?_zip_eq_some.mpr ⟨hi, hm'⟩)

/-- What is not refused is built, and only that. -/
theorem exists_build : (∃ api, build entities supply extensions custom largest = .ok api) ↔
    Accepted entities supply extensions := by
  constructor
  · rintro ⟨api, h⟩
    obtain ⟨generated, hg, -⟩ := build_ok h
    obtain ⟨models, document, bindings, hn, hm, hd, hb, -⟩ := generate_ok hg
    have hbusy : ¬Idle entities extensions := by
      intro hi
      have hrefused : generate entities supply extensions largest = .error .nothingToServe :=
        generate_eq_error.mpr (.inr (.inl ⟨hn, hi, rfl⟩))
      rw [hg] at hrefused
      cases hrefused
    refine ⟨⟨⟨⟨hn, hbusy⟩, Result.exists_mapM.mp ⟨_, hm⟩⟩, (exists_assemble models).mp ⟨_, hd⟩⟩, ?_⟩
    intro x hx m hxm
    exact exists_bind.mp ⟨_, hb⟩ (x, m) ((mem_zip_models hm).mpr ⟨hx, hxm⟩)
  · intro h
    obtain ⟨models, hm⟩ := Result.exists_mapM.mpr h.models
    obtain ⟨document, hd⟩ := (exists_assemble models).mpr h.lines
    obtain ⟨bindings, hb⟩ : ∃ bindings, bind supply (entities.zip models) = .ok bindings := by
      refine exists_bind.mpr fun p hp => ?_
      obtain ⟨hx, hxm⟩ := (mem_zip_models hm).mp hp
      exact h.stores p.1 hx p.2 hxm
    unfold build
    rw [generate_eq, if_neg (not_not_intro h.names), if_neg (fun hi => h.busy (idle_iff.mp hi)),
      hm, Result.ok_bind, hd, Result.ok_bind, hb]
    exact ⟨_, rfl⟩

/-- Every entity that is given gets a store: nothing goes wrong in making one. -/
def Makes (supply : Supply σ) : Prop :=
  ∀ make, supply = .maker make → ∀ x m, ∃ s, make x m = .ok s

/-- Repeated names are told whatever else is wrong, and only they are told in this way. -/
theorem build_eq_duplicateEntities {names : List String} (hmakes : Makes supply) :
    build entities supply extensions custom largest = .error (.duplicateEntities names) ↔
      Repeats entities names := by
  rw [build_eq_error]
  constructor
  · intro h
    generalize he : Failure.duplicateEntities names = e at h
    cases h with
    | repeated hrepeats =>
      cases he
      exact hrepeats
    | idle => cases he
    | entity _ hfirst =>
      obtain ⟨_, x, _, _, _, hx⟩ := hfirst
      exact absurd (he ▸ hx) Model.ofEntity_ne_duplicateEntities
    | line => cases he
    | noStore => cases he
    | notMade _ hsupply _ hfirst =>
      obtain ⟨_, p, _, _, _, hp⟩ := hfirst
      obtain ⟨s, hs⟩ := hmakes _ hsupply p.1 p.2
      cases hs.symm.trans hp
  · exact .repeated

/-- A finished interface has the models of its entities, in their order. -/
theorem models_of_build {api : Api σ}
    (h : build entities supply extensions custom largest = .ok api) :
    List.Forall₂ (fun x m => Model.ofEntity x = .ok m) entities api.models := by
  obtain ⟨generated, hg, rfl⟩ := build_ok h
  obtain ⟨models, document, bindings, _, hm, _, hb, rfl⟩ := generate_ok hg
  have hmodels : bindings.map Binding.model = models := models_of_bind hm hb
  show List.Forall₂ _ entities (bindings.map Binding.model)
  rw [hmodels]
  exact Result.mapM_eq_ok.mp hm

/-! ## The report -/

/-- No count in the report of the interface has too many digits to be written. -/
def Countable (api : Api σ) : Prop :=
  ∀ n ∈ [api.query.length, api.mutation.length, api.extensionCount],
    n < Nat.pow 10 Numeral.digitLimit

/-- The report of a finished interface can be written. -/
theorem record_builtEvent {api : Api σ} (hcount : Countable api) (journal : Log.Journal) :
    ∃ later, journal.record api.builtEvent = .ok later := by
  have hint : ∀ n ∈ [api.query.length, api.mutation.length, api.extensionCount],
      ∃ j, Value.toJson? (.int n) = .ok j := by
    intro n hn
    exact ⟨_, Value.toJson?_int_of_lt (n := n) (hcount n hn)⟩
  have hnames : ∃ j, (Value.list (api.models.map fun m => .text m.name)).toJson? = .ok j := by
    have hitems := Value.jsonItems?_texts (api.models.map Model.name)
    rw [List.map_map] at hitems
    rw [Value.toJson?]
    exact ⟨_, congrArg (· >>= _) hitems⟩
  simp only [List.forall_mem_cons, List.not_mem_nil, false_implies, implies_true, and_true] at hint
  obtain ⟨hqueries, hmutations, hextensions⟩ := hint
  have hfields : ∀ f ∈ api.builtEvent.fields, ∃ j, f.2.toJson? = .ok j := by
    simp only [builtEvent, List.forall_mem_cons, List.not_mem_nil, false_implies, implies_true,
      and_true]
    exact ⟨hnames, hqueries, hmutations, hextensions⟩
  exact Log.Journal.exists_record hfields journal

end Api

namespace CustomResolvers

/-- A table of operations by name, or none. -/
def Tabular (v : Value) : Prop :=
  v = .null ∨ ∃ entries, v = .map entries ∧ ∀ e ∈ entries, e.1.isText = true

/-- Each section of the table is a table of operations, where there is one. -/
def Sectioned (custom : List (Value × Value)) : Prop :=
  ∀ root : Root, Tabular (Value.field custom root.lowerName) ∧
    (Value.field custom root.lowerName = .null → Tabular (Value.field custom root.name))

theorem exists_named {entries : List (Value × Value)} (h : ∀ e ∈ entries, e.1.isText = true) :
    ∃ table, named entries = .ok table := by
  refine Result.exists_mapM.mpr ?_
  rintro ⟨name, label⟩ he
  have hname : name.isText = true := h _ he
  cases name with
  | text s => exact ⟨_, rfl⟩
  | _ => cases hname

theorem exists_section {custom : List (Value × Value)} (h : Sectioned custom) (root : Root) :
    ∃ entries, sectionOf custom root = .ok entries ∧ ∃ table, named entries = .ok table := by
  obtain ⟨hlower, hname⟩ := h root
  unfold sectionOf
  rcases hlower with hnull | ⟨entries, hentries, htexts⟩
  · rcases hname hnull with hnull' | ⟨entries, hentries, htexts⟩
    · rw [hnull, hnull']
      exact ⟨[], rfl, [], rfl⟩
    · rw [hnull, hentries]
      exact ⟨entries, rfl, exists_named htexts⟩
  · rw [hentries]
    exact ⟨entries, rfl, exists_named htexts⟩

/-- Tables of that form are all accepted. -/
theorem exists_ofMap {custom : List (Value × Value)} (h : Sectioned custom) :
    ∃ c, ofMap custom = .ok c := by
  obtain ⟨queries, hqueries, query, hquery⟩ := exists_section h .query
  obtain ⟨mutations, hmutations, mutation, hmutation⟩ := exists_section h .mutation
  unfold ofMap
  rw [hqueries, Result.ok_bind, hquery, Result.ok_bind, hmutations, Result.ok_bind, hmutation]
  exact ⟨_, rfl⟩

end CustomResolvers

namespace Api

variable {σ : Type} {entities : List Entity} {supply : Supply σ}
  {extensions : List Schema.Extension} {largest : Value}

/-- **Just the well-formed interfaces are built, and what the others are refused for is the first
fault in a fixed order.** Tables of custom resolvers play no part in it. Repeated names are told
whatever else is wrong. A finished interface has one model for each entity, in order, and can be
reported. -/
theorem acceptance_decided {tables : List (List (Value × Value))}
    (hsections : ∀ c ∈ tables, CustomResolvers.Sectioned c) :
    ∃ custom, tables.mapM CustomResolvers.ofMap = .ok custom ∧
      (Makes supply → ∀ names,
        build entities supply extensions custom largest = .error (.duplicateEntities names) ↔
          Repeats entities names) ∧
      (∀ e, build entities supply extensions custom largest = .error e ↔
        Refused entities supply extensions e) ∧
      ((∃ api, build entities supply extensions custom largest = .ok api) ↔
        Accepted entities supply extensions) ∧
      ∀ api, build entities supply extensions custom largest = .ok api →
        List.Forall₂ (fun x m => Model.ofEntity x = .ok m) entities api.models ∧
        (Countable api →
          ∀ journal : Log.Journal, ∃ later, journal.record api.builtEvent = .ok later) := by
  obtain ⟨custom, hcustom⟩ := Result.exists_mapM.mpr fun c hc =>
    CustomResolvers.exists_ofMap (hsections c hc)
  exact ⟨custom, hcustom, fun hmakes _ => build_eq_duplicateEntities hmakes,
    fun _ => build_eq_error, exists_build,
    fun _ h => ⟨models_of_build h, fun hcount => record_builtEvent hcount⟩⟩

/-- A repeated name comes before an entity without a name and missing stores; a missing store comes
last. -/
theorem acceptance_decided_of_users :
    let user : Entity := ⟨"User", [("age", { type := .text "integer" })], .null⟩
    let tag : Entity := ⟨"Tag", [], .null⟩
    let ping : List (Value × Value) := [(.text "query", .map [(.text "ping", .text "pong")])]
    let stores : Supply MemoryStore := .table [("User", .empty "id")]
    (∀ c ∈ [ping], CustomResolvers.Sectioned c) ∧
    ∃ custom, [ping].mapM CustomResolvers.ofMap = .ok custom ∧
      build [user, ⟨"", [], .null⟩, user] (.table (σ := MemoryStore) []) [] custom .null =
        .error (.duplicateEntities ["User"]) ∧
      build [user, tag] stores [] custom .null = .error (.noAccess "Tag") ∧
      ∃ api, build [user] stores [] custom .null = .ok api := by
  intro user tag ping stores
  have hsections : ∀ c ∈ [ping], CustomResolvers.Sectioned c := by
    refine List.forall_mem_singleton.mpr fun root => ?_
    cases root with
    | query =>
      have hquery : Value.field ping "query" = .map [(.text "ping", .text "pong")] := by
        simp [ping, Value.field, Value.lookup, Entries.get?]
      refine ⟨.inr ⟨_, hquery, by decide⟩, fun hnull => ?_⟩
      cases hquery.symm.trans hnull
    | mutation =>
      have hnone : ∀ name ∈ ["mutation", "Mutation"], Value.field ping name = .null := by
        simp [ping, Value.field, Value.lookup, Entries.get?]
      exact ⟨.inl (hnone _ (by decide)), fun _ => .inl (hnone _ (by decide))⟩
  have hmodels : ∀ x ∈ [user, tag], ∃ m, Model.ofEntity x = .ok m :=
    List.forall_mem_cons.mpr ⟨⟨_, rfl⟩, List.forall_mem_singleton.mpr ⟨_, rfl⟩⟩
  obtain ⟨custom, hcustom, hrepeated, -⟩ := @acceptance_decided MemoryStore
    [user, ⟨"", [], .null⟩, user] (.table []) [] .null _ hsections
  obtain ⟨custom₁, hcustom₁, -, hrefused, -⟩ :=
    @acceptance_decided MemoryStore [user, tag] stores [] .null _ hsections
  obtain ⟨custom₂, hcustom₂, -, -, haccepted, -⟩ :=
    @acceptance_decided MemoryStore [user] stores [] .null _ hsections
  obtain rfl := Except.ok.inj (hcustom.symm.trans hcustom₁)
  obtain rfl := Except.ok.inj (hcustom.symm.trans hcustom₂)
  have hnoLines : ∀ line ∈ Schema.allLines [], ¬Schema.Nameless line := by
    intro line hline
    cases hline
  refine ⟨hsections, custom, hcustom, ?_, ?_, ?_⟩
  · refine (hrepeated (fun make h => by cases h) _).mpr (repeats_iff.mpr ⟨by decide, ?_⟩)
    decide +kernel
  · refine (hrefused _).mpr (.noStore (x := tag) ⟨⟨⟨by decide, ?_⟩, hmodels⟩, hnoLines⟩ rfl ?_)
    · rintro ⟨hnil, -⟩
      cases hnil
    · exact ⟨[user], [], rfl, by decide, by decide⟩
  · refine haccepted.mpr ⟨⟨⟨⟨by decide, ?_⟩, ?_⟩, hnoLines⟩, ?_⟩
    · rintro ⟨hnil, -⟩
      cases hnil
    · exact List.forall_mem_singleton.mpr (hmodels user List.mem_cons_self)
    · exact List.forall_mem_singleton.mpr fun m _ => ⟨_, rfl⟩

end Api

end EntityApi
