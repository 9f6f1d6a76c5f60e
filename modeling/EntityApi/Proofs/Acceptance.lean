import EntityApi.Api
import EntityApi.Proofs.Results
import Mathlib.Data.List.Nodup

/-! # What an accepted interface is made of

Building refuses repeated names, an empty interface, entities that make no
model, unnamed signatures and entities without a store, one after another
(`generate_eq`). An interface that was built passed all of these, and it holds,
entity by entity and in order, the model of the entity and the store supplied for
it (`generate_ok`, `binding_of_entity`). -/
namespace EntityApi

theorem Model.ofEntity_name {e : Entity} {m : Model} (h : Model.ofEntity e = .ok m) :
    m.name = e.name := by
  unfold Model.ofEntity at h
  simp only [] at h
  split at h
  · simp at h
  · obtain ⟨fields, _, hm⟩ := Result.bind_eq_ok.mp h
    cases hm
    rfl

namespace Api

variable {σ : Type} {entities : List Entity} {models : List Model} {supply : Supply σ}
  {extensions : List Schema.Extension} {custom : List CustomResolvers} {largest : Value}
  {bindings : List (Binding σ)}

theorem mem_repeatedNames {names : List String} {n : String} :
    n ∈ repeatedNames names ↔ 2 ≤ names.count n := by
  unfold repeatedNames
  rw [List.mem_mergeSort, List.mem_eraseDups, List.mem_filter]
  simp only [decide_eq_true_eq]
  constructor
  · rintro ⟨_, hcount⟩
    exact hcount
  · intro hcount
    exact ⟨List.count_pos_iff.mp (by omega), hcount⟩

theorem repeatedNames_eq_nil_iff {names : List String} :
    repeatedNames names = [] ↔ names.Nodup := by
  rw [List.nodup_iff_count_le_one, List.eq_nil_iff_forall_not_mem]
  simp only [mem_repeatedNames]
  exact forall_congr' fun n => by omega

/-- The outcome of building without custom resolvers, pass by pass. -/
theorem generate_eq : generate entities supply extensions largest =
    if ¬(entities.map Entity.name).Nodup then
      refuse (.duplicateEntities (repeatedNames (entities.map Entity.name)))
    else if (entities.isEmpty && extensions.all fun ext => (ext.signatures .query).isEmpty) = true then
      refuse .nothingToServe
    else (do
      let models ← entities.mapM Model.ofEntity
      let document ← Schema.Document.assemble models extensions
      let bindings ← bind supply (entities.zip models)
      return ⟨document, bindings, handlers .query models, handlers .mutation models, largest,
        extensions.length⟩) := by
  unfold generate
  simp only []
  by_cases hn : (entities.map Entity.name).Nodup
  · have hnone := repeatedNames_eq_nil_iff.mpr hn
    simp only [hnone, hn, List.isEmpty_nil, Bool.not_true, Bool.false_eq_true, ↓reduceIte, not_true]
    split <;> rfl
  · have hsome : (repeatedNames (entities.map Entity.name)).isEmpty = false := by
      rw [Bool.eq_false_iff, ne_eq, List.isEmpty_iff, repeatedNames_eq_nil_iff]
      exact hn
    simp only [hsome, hn, Bool.not_false, ↓reduceIte, not_false_eq_true]
    rfl

/-- Nothing else is in an interface without custom resolvers. -/
theorem generate_ok {api : Api σ} (h : generate entities supply extensions largest = .ok api) :
    ∃ models document bindings, (entities.map Entity.name).Nodup ∧
      entities.mapM Model.ofEntity = .ok models ∧
      Schema.Document.assemble models extensions = .ok document ∧
      bind supply (entities.zip models) = .ok bindings ∧
      api = ⟨document, bindings, handlers .query models, handlers .mutation models, largest,
        extensions.length⟩ := by
  rw [generate_eq] at h
  split at h
  · cases h
  · rename_i hn
    split at h
    · cases h
    · obtain ⟨models, hm, h⟩ := Result.bind_eq_ok.mp h
      obtain ⟨document, hd, h⟩ := Result.bind_eq_ok.mp h
      obtain ⟨bindings, hb, h⟩ := Result.bind_eq_ok.mp h
      cases h
      exact ⟨models, document, bindings, not_not.mp hn, hm, hd, hb, rfl⟩

/-- There is something to serve: an entity, or a query of an extension. -/
theorem served_of_generate {api : Api σ}
    (h : generate entities supply extensions largest = .ok api) :
    entities ≠ [] ∨ ∃ e ∈ extensions, e.signatures .query ≠ [] := by
  rw [generate_eq] at h
  split at h
  · cases h
  · split at h
    · cases h
    · rename_i hserved
      simp only [Bool.and_eq_true, List.all_eq_true, List.isEmpty_iff, not_and, not_forall] at hserved
      by_cases hempty : entities = []
      · obtain ⟨e, he, hsome⟩ := hserved hempty
        exact .inr ⟨e, he, hsome⟩
      · exact .inl hempty

theorem build_ok {api : Api σ} (h : build entities supply extensions custom largest = .ok api) :
    ∃ generated, generate entities supply extensions largest = .ok generated ∧
      api = generated.withCustom custom := by
  obtain ⟨generated, hg, ha⟩ := Result.bind_eq_ok.mp h
  exact ⟨generated, hg, (Except.ok.inj ha).symm⟩

theorem withCustom_nil (api : Api σ) : api.withCustom [] = api := rfl

theorem bind_eq_ok {pairs : List (Entity × Model)} :
    bind supply pairs = .ok bindings ↔ List.Forall₂
      (fun p (b : Binding σ) => p.2 = b.model ∧ supply.storeFor p.1 p.2 = .ok b.store)
      pairs bindings := by
  induction pairs generalizing bindings with
  | nil => cases bindings <;> simp [bind]
  | cons p pairs ih =>
    obtain ⟨e, m⟩ := p
    unfold bind
    constructor
    · intro h
      obtain ⟨store, hs, h⟩ := Result.bind_eq_ok.mp h
      obtain ⟨rest, hr, h⟩ := Result.bind_eq_ok.mp h
      cases h
      exact .cons ⟨rfl, hs⟩ (ih.mp hr)
    · intro h
      cases h with
      | cons hb hr =>
        obtain ⟨rfl, hs⟩ := hb
        rw [hs, Result.ok_bind, ih.mpr hr]
        rfl

/-- The entity at a position has its model and its store there. -/
theorem binding_of_entity (hm : entities.mapM Model.ofEntity = .ok models)
    (hb : bind supply (entities.zip models) = .ok bindings) {i : Nat} {e : Entity}
    (he : entities[i]? = some e) :
    ∃ m s, Model.ofEntity e = .ok m ∧ models[i]? = some m ∧ supply.storeFor e m = .ok s ∧
      bindings[i]? = some ⟨m, s⟩ := by
  obtain ⟨m, hmi, hme⟩ := Result.getElem?_of_forall₂ (Result.mapM_eq_ok.mp hm) he
  have hz : (entities.zip models)[i]? = some (e, m) :=
    List.getElem?_zip_eq_some.mpr ⟨he, hmi⟩
  obtain ⟨⟨model, s⟩, hbi, hmodel, hstore⟩ := Result.getElem?_of_forall₂ (bind_eq_ok.mp hb) hz
  cases hmodel
  exact ⟨m, s, hme, hmi, hstore, hbi⟩

theorem length_models (hm : entities.mapM Model.ofEntity = .ok models) :
    entities.length = models.length :=
  (Result.mapM_eq_ok.mp hm).length_eq

/-- The bound models are the models of the entities. -/
theorem models_of_bind (hm : entities.mapM Model.ofEntity = .ok models)
    (hb : bind supply (entities.zip models) = .ok bindings) : bindings.map Binding.model = models := by
  have hpairs : ∀ (pairs : List (Entity × Model)) (bindings : List (Binding σ)),
      List.Forall₂ (fun p (b : Binding σ) => p.2 = b.model ∧ supply.storeFor p.1 p.2 = .ok b.store)
        pairs bindings → bindings.map Binding.model = pairs.map Prod.snd := by
    intro pairs bindings hf
    induction hf with
    | nil => rfl
    | cons hp _ ih => rw [List.map_cons, List.map_cons, ih, hp.1]
  rw [hpairs _ _ (bind_eq_ok.mp hb)]
  exact List.map_snd_zip (Nat.le_of_eq (length_models hm).symm)

theorem names_of_models (hm : entities.mapM Model.ofEntity = .ok models) :
    models.map Model.name = entities.map Entity.name := by
  have h := Result.mapM_eq_ok.mp hm
  clear hm
  induction h with
  | nil => rfl
  | cons hem _ ih => rw [List.map_cons, List.map_cons, Model.ofEntity_name hem, ih]

end Api

end EntityApi
