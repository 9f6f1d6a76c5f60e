import EntityApi.Proofs.Acceptance
import EntityApi.Proofs.OperationNames
import EntityApi.Proofs.Tables
import EntityApi.Proofs.Text.Codes
import EntityApi.Store.Memory

/-! # Every generated operation is served

The operations of all entities are collected in one table of handlers and one of
signature lines for each root type, both keyed by the names of the operations.
Distinct entities are not enough for distinct names: reading `multiple_E` is
named like listing `E`, and whichever comes later takes the place of the other.
That is the only way in which an operation gets lost (`serves_all_iff`). -/
namespace EntityApi

open Operation

/-! ## The parts of a rendered document -/

theorem part_of_intercalate {sep x : String} {l : List String} (h : x ∈ l) :
    ∃ before after, sep.intercalate l = before ++ x ++ after := by
  induction l with
  | nil => cases h
  | cons t l ih =>
    cases l with
    | nil =>
      rw [List.mem_singleton.mp h]
      exact ⟨"", "", by simp⟩
    | cons u l =>
      rw [String.intercalate_cons_cons]
      rcases List.mem_cons.mp h with rfl | h
      · exact ⟨"", sep ++ sep.intercalate (u :: l), by simp [String.append_assoc]⟩
      · obtain ⟨before, after, hl⟩ := ih h
        exact ⟨t ++ sep ++ before, after, by rw [hl]; simp [String.append_assoc]⟩

namespace Schema

/-- A block as it stands in a document: its head, the lines, each indented and ended by a break, and
the brace that closes it. -/
def blockText (name : String) (lines : List String) : String :=
  "type " ++ name ++ " \x7b\n" ++ String.join (lines.map fun line => "  " ++ line ++ "\n") ++ "\x7d\n"

theorem block_eq_blockText {name : String} {lines : List String} (h : lines ≠ []) :
    block name lines = blockText name lines := by
  have hlines : "\n".intercalate (lines.map ("  " ++ ·)) ++ "\n" =
      String.join (lines.map fun line => "  " ++ line ++ "\n") := by
    apply String.toList_inj.mp
    rw [Text.intercalate_append (mt List.map_eq_nil_iff.mp h), String.toList_join, List.flatMap_map,
      List.flatMap_map]
    simp only [String.toList_append]
  rw [block, blockText, ← hlines]
  simp only [String.append_assoc]
  rfl

theorem block_values {table : List (String × String)} (h : table ≠ []) (name : String) :
    block name (Entries.values table) = blockText name (Entries.values table) :=
  block_eq_blockText (mt List.map_eq_nil_iff.mp h)

namespace Document

/-- The signature lines under a root type, by operation name. -/
def signatures (d : Document) : Root → List (String × String)
  | .query => d.query
  | .mutation => d.mutation

/-- The document has a block of the signature lines of each root type that has any. -/
theorem render_has_block (d : Document) (root : Root) (h : d.signatures root ≠ []) :
    ∃ before after, d.render =
      before ++ blockText root.name (Entries.values (d.signatures root)) ++ after := by
  rw [← block_values h]
  apply part_of_intercalate
  cases root with
  | query => simp [signatures, Root.name]
  | mutation =>
    have hm : d.mutation.isEmpty = false := by
      cases hd : d.mutation with
      | nil => exact absurd hd h
      | cons e es => rfl
    simp [signatures, Root.name, hm]

/-- A signature line of the document stands in the block of its root type. -/
theorem render_has_line (d : Document) {root : Root} {name line : String}
    (h : Entries.get? (d.signatures root) name = some line) :
    ∃ before earlier later after,
      Entries.values (d.signatures root) = earlier ++ line :: later ∧
      d.render = before ++ blockText root.name (earlier ++ line :: later) ++ after := by
  have hmem := Entries.mem_of_get? h
  have hline : line ∈ Entries.values (d.signatures root) := List.mem_map_of_mem (f := Prod.snd) hmem
  obtain ⟨earlier, later, hvalues⟩ := List.append_of_mem hline
  obtain ⟨before, after, hrender⟩ := d.render_has_block root (List.ne_nil_of_mem hmem)
  rw [hvalues] at hrender
  exact ⟨before, earlier, later, after, hvalues, hrender⟩

end Document

end Schema

/-! ## Handlers and signature lines by name -/

namespace Schema

theorem signatureLines_eq (m : Model) (root : Root) : signatureLines m root =
    (Operation.ofRoot root).map fun op => (op.nameFor m.name, (signature m op).text) := by
  apply Entries.ofList_eq_self
  simpa [Entries.keys, Function.comp_def] using nodup_own_names root m.name

theorem generated_eq (models : List Model) (root : Root) :
    Document.generated models root = Entries.ofList (models.flatMap (signatureLines · root)) :=
  Entries.foldl_merge (fun m => signatureLines m root) [] models

theorem keys_signatureLines (models : List Model) (root : Root) :
    Entries.keys (models.flatMap (signatureLines · root)) =
      namesUnder root (models.map Model.name) := by
  induction models with
  | nil => rfl
  | cons m models ih =>
    rw [List.flatMap_cons, Entries.keys_append, ih, signatureLines_eq]
    simp [namesUnder, Entries.keys, Function.comp_def]

/-- Without a clash of names every model has its own line for every operation. -/
theorem get?_generated {models : List Model} {op : Operation} {m : Model} (hm : m ∈ models)
    (hn : (namesUnder op.root (models.map Model.name)).Nodup) :
    Entries.get? (Document.generated models op.root) (op.nameFor m.name) =
      some (signature m op).text := by
  rw [← keys_signatureLines] at hn
  rw [generated_eq, Entries.ofList_eq_self hn, Entries.get?_eq_some_iff hn, List.mem_flatMap]
  refine ⟨m, hm, ?_⟩
  rw [signatureLines_eq]
  exact List.mem_map.mpr ⟨op, mem_ofRoot.mpr rfl, rfl⟩

end Schema

namespace Api

variable {σ : Type}

theorem keys_handlersFrom (root : Root) (start : Nat) (models : List Model) :
    Entries.keys (handlersFrom root start models) = namesUnder root (models.map Model.name) := by
  induction models generalizing start with
  | nil => rfl
  | cons m models ih =>
    rw [handlersFrom, Entries.keys_append, ih]
    simp [namesUnder, Entries.keys, Function.comp_def]

theorem mem_handlersFrom (op : Operation) {models : List Model} {i : Nat} {m : Model}
    (start : Nat) (h : models[i]? = some m) :
    (op.nameFor m.name, Handler.generated op (start + i)) ∈
      handlersFrom op.root start models := by
  induction models generalizing start i with
  | nil => simp at h
  | cons m' models ih =>
    rw [handlersFrom]
    cases i with
    | zero =>
      rw [List.getElem?_cons_zero, Option.some.injEq] at h
      subst h
      exact List.mem_append_left _ (List.mem_map.mpr ⟨op, mem_ofRoot.mpr rfl, rfl⟩)
    | succ i =>
      rw [List.getElem?_cons_succ] at h
      have := ih (start + 1) h
      rw [Nat.add_right_comm, Nat.add_assoc] at this
      exact List.mem_append_right _ this

theorem handlers_eq {root : Root} {models : List Model}
    (hn : (namesUnder root (models.map Model.name)).Nodup) :
    handlers root models = handlersFrom root 0 models := by
  rw [← keys_handlersFrom root 0] at hn
  exact Entries.ofList_eq_self hn

theorem length_handlers {root : Root} {models : List Model}
    (hn : (namesUnder root (models.map Model.name)).Nodup) :
    (handlers root models).length = 2 * models.length := by
  rw [handlers_eq hn, ← Entries.length_keys, keys_handlersFrom, length_namesUnder, List.length_map]

/-- Without a clash of names the entity at a position has its own handler for every operation. -/
theorem get?_handlers {op : Operation} {models : List Model} {i : Nat} {m : Model}
    (hm : models[i]? = some m) (hn : (namesUnder op.root (models.map Model.name)).Nodup) :
    Entries.get? (handlers op.root models) (op.nameFor m.name) = some (.generated op i) := by
  have hmem := mem_handlersFrom op 0 hm
  rw [Nat.zero_add] at hmem
  rw [handlers_eq hn]
  rw [← keys_handlersFrom op.root 0] at hn
  exact (Entries.get?_eq_some_iff hn).mpr hmem

/-! ## What it is to serve an operation -/

/-- The name of an operation stands for that operation of the model `m`, whose store is `s` and
whose place is `i`: in the table of handlers, when it is called, and in the schema. -/
structure Offers (api : Api σ) (i : Nat) (m : Model) (s : σ) (op : Operation) : Prop where
  handler : Entries.get? (api.handlersOf op.root) (op.nameFor m.name) = some (.generated op i)
  answer : ∀ (access : Access σ) (journal : Log.Journal) (args : Row),
    api.call access journal (op.nameFor m.name) args =
      (let (r, after) := (Resolver.run access m api.largestPage op args).run ⟨s, journal⟩
       (r, { api with bindings := setStore api.bindings i after.store }, after.journal))
  line : Entries.get? (api.document.signatures op.root) (op.nameFor m.name) =
    some (Schema.signature m op).text
  block : ∃ before earlier later after,
    Entries.values (api.document.signatures op.root) =
      earlier ++ (Schema.signature m op).text :: later ∧
    api.sdl = before ++
      Schema.blockText op.root.name (earlier ++ (Schema.signature m op).text :: later) ++ after

/-- All four operations of every entity are served, with the model and the store of that entity,
and nothing else is. -/
structure ServesAll (entities : List Entity) (supply : Supply σ) (api : Api σ) : Prop where
  queries : api.query.length = 2 * entities.length
  mutations : api.mutation.length = 2 * entities.length
  offers : ∀ (i : Nat) (e : Entity), entities[i]? = some e → ∃ m s,
    Model.ofEntity e = .ok m ∧ supply.storeFor e m = .ok s ∧ api.bindings[i]? = some ⟨m, s⟩ ∧
      m.name = e.name ∧ ∀ op, Offers api i m s op

/-- A query is looked up among the queries; the name of a mutation is none of theirs. -/
theorem handler?_eq {api : Api σ} {names : List String} {op : Operation} {entity : String}
    {h : Handler} (hq : Entries.keys api.query = namesUnder .query names)
    (hh : Entries.get? (api.handlersOf op.root) (op.nameFor entity) = some h) :
    api.handler? (op.nameFor entity) = some h := by
  unfold handler?
  cases hr : op.root with
  | query =>
    rw [hr] at hh
    change Entries.get? api.query _ = some h at hh
    rw [hh]
    rfl
  | mutation =>
    rw [hr] at hh
    change Entries.get? api.mutation _ = some h at hh
    have hnone : Entries.get? api.query (op.nameFor entity) = none := by
      rw [Entries.get?_eq_none_iff, hq, mem_namesUnder]
      rintro ⟨e, _, op', hr', he⟩
      rw [root_eq_of_nameFor he, hr] at hr'
      cases hr'
    rw [hnone]
    exact hh

theorem call_of_handler {api : Api σ} {name : String} {op : Operation} {i : Nat} {m : Model} {s : σ}
    (hh : api.handler? name = some (.generated op i)) (hb : api.bindings[i]? = some ⟨m, s⟩)
    (access : Access σ) (journal : Log.Journal) (args : Row) :
    api.call access journal name args =
      (let (r, after) := (Resolver.run access m api.largestPage op args).run ⟨s, journal⟩
       (r, { api with bindings := setStore api.bindings i after.store }, after.journal)) := by
  unfold call
  rw [hh]
  simp only [hb]

/-- Entities without a clash of names are all served. -/
theorem serves_all_of_unshadowed {entities : List Entity} {supply : Supply σ} {largest : Value}
    {api : Api σ} (h : build entities supply [] [] largest = .ok api)
    (hu : Unshadowed (entities.map Entity.name)) : ServesAll entities supply api := by
  obtain ⟨generated, hg, rfl⟩ := build_ok h
  rw [withCustom_nil]
  obtain ⟨models, document, bindings, hnd, hm, hd, hb, hapi⟩ := generate_ok hg
  cases hd
  have hnames := names_of_models hm
  have hn : ∀ root, (namesUnder root (models.map Model.name)).Nodup := by
    intro root
    rw [hnames]
    exact nodup_namesUnder hnd hu
  have hlen : models.length = entities.length := by
    rw [← List.length_map (f := Model.name), hnames, List.length_map]
  have hhandlers : ∀ root, generated.handlersOf root = handlers root models := by
    intro root; rw [hapi]; cases root <;> rfl
  have hlines : ∀ root, generated.document.signatures root =
      Schema.Document.generated models root := by
    intro root; rw [hapi]; cases root <;> rfl
  have hqueries : Entries.keys generated.query = namesUnder .query (models.map Model.name) := by
    rw [show generated.query = handlers .query models from hhandlers .query,
      handlers_eq (hn .query), keys_handlersFrom]
  have hcount : ∀ root, (generated.handlersOf root).length = 2 * entities.length := by
    intro root
    rw [hhandlers, length_handlers (hn root), hlen]
  refine ⟨hcount .query, hcount .mutation, ?_⟩
  · intro i e he
    obtain ⟨m, s, hme, hmi, hs, hbi⟩ := binding_of_entity hm hb he
    have hbind : generated.bindings[i]? = some ⟨m, s⟩ := by rw [hapi]; exact hbi
    refine ⟨m, s, hme, hs, hbind, Model.ofEntity_name hme, fun op => ?_⟩
    have hget : Entries.get? (generated.handlersOf op.root) (op.nameFor m.name) =
        some (.generated op i) := by
      rw [hhandlers]; exact get?_handlers hmi (hn op.root)
    have hline : Entries.get? (generated.document.signatures op.root) (op.nameFor m.name) =
        some (Schema.signature m op).text := by
      rw [hlines]; exact Schema.get?_generated (List.mem_of_getElem? hmi) (hn op.root)
    exact ⟨hget, call_of_handler (handler?_eq hqueries hget) hbind, hline,
      generated.document.render_has_line hline⟩

/-- A clash of names leaves an entity without its listing. -/
theorem unshadowed_of_serves_all {entities : List Entity} {supply : Supply σ} {api : Api σ}
    (h : ServesAll entities supply api) : Unshadowed (entities.map Entity.name) := by
  intro a ha b hb hab
  obtain ⟨e, he, rfl⟩ := List.mem_map.mp ha
  obtain ⟨f, hf, rfl⟩ := List.mem_map.mp hb
  obtain ⟨i, hi⟩ := List.mem_iff_getElem?.mp he
  obtain ⟨j, hj⟩ := List.mem_iff_getElem?.mp hf
  obtain ⟨m, s, _, _, _, hm, hlisting⟩ := h.offers i e hi
  obtain ⟨n, t, _, _, _, hn, hreading⟩ := h.offers j f hj
  have hread := (hreading .read).handler
  have hlist := (hlisting .readMultiple).handler
  -- one name, two handlers
  rw [hn, hab, nameFor_read_listingPart, ← hm] at hread
  exact absurd (hread.symm.trans hlist) (by simp)

/-- **No generated operation is lost, but for one clash of names.** An interface that was built
without extensions and custom resolvers serves the four operations of each of its entities, and
has exactly two queries and two mutations for each, if and only if no entity is named for the
listing of another. -/
theorem serves_all_iff {entities : List Entity} {supply : Supply σ} {largest : Value}
    {api : Api σ} (h : build entities supply [] [] largest = .ok api) :
    ServesAll entities supply api ↔ Unshadowed (entities.map Entity.name) :=
  ⟨unshadowed_of_serves_all, serves_all_of_unshadowed h⟩

/-- An empty store for every entity. -/
def emptyStores : Supply MemoryStore := .maker fun _ m => .ok (.empty m.primaryKey.name)

theorem serves_all_user_tag : ∃ api,
    build [⟨"User", [("age", { type := .text "integer" })], .null⟩, ⟨"Tag", [], .null⟩]
      emptyStores [] [] .null = .ok api ∧
    ServesAll [⟨"User", [("age", { type := .text "integer" })], .null⟩, ⟨"Tag", [], .null⟩]
      emptyStores api := by
  obtain ⟨api, h⟩ := Result.exists_of_isOk
    (x := build [⟨"User", [("age", { type := .text "integer" })], .null⟩, ⟨"Tag", [], .null⟩]
      emptyStores [] [] .null) (by decide +kernel)
  have hu : Unshadowed ["User", "Tag"] := by unfold Unshadowed; decide
  exact ⟨api, h, (serves_all_iff h).mpr hu⟩

/-- Two entities of distinct names, of which the first has lost its listing. -/
theorem listing_lost_to_multiple : ∃ api,
    build [⟨"E", [], .null⟩, ⟨"multiple_E", [], .null⟩] emptyStores [] [] .null = .ok api ∧
    api.query.length = 3 ∧
    ¬ServesAll [⟨"E", [], .null⟩, ⟨"multiple_E", [], .null⟩] emptyStores api := by
  obtain ⟨api, h⟩ := Result.exists_of_isOk
    (x := build [⟨"E", [], .null⟩, ⟨"multiple_E", [], .null⟩] emptyStores [] [] .null)
    (by decide +kernel)
  have hlen : (build [⟨"E", [], .null⟩, ⟨"multiple_E", [], .null⟩] emptyStores [] []
      .null).toOption.map (·.query.length) = some 3 := by decide +kernel
  rw [h] at hlen
  refine ⟨api, h, Option.some.inj hlen, fun hs => ?_⟩
  exact unshadowed_of_serves_all hs "E" (by simp) "multiple_E" (by simp) rfl

end Api

end EntityApi
