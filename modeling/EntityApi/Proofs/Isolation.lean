import EntityApi.Proofs.Coverage
import EntityApi.Proofs.Store.Ledger

/-! # Entities do not see each other's requests

A request reaches the store of one entity at most, the one whose handler its name
stands for, and what is logged on the way plays no part in what it is answered.
So the requests for an entity can be told apart from all others: a run of any
requests agrees, about the entity, with the run of its own requests alone
(`answerAll_agree`, by induction over the requests; a step of a foreign request
is `call_foreign`, one of an own request `call_own`). That shorter run is no more
than calls on the entity's own store (`answerAll_calls`). -/
namespace EntityApi

open Operation
open Log.Journal (Alike)

/-! ## Operations ignore the log -/

namespace Access

/-- What has been logged plays no part in what the store does. -/
structure IgnoresLog {σ : Type} (access : Access σ) : Prop where
  findByKey : ∀ key, (access.findByKey key).IgnoresLog
  findAndCount : ∀ conditions order offset limit,
    (access.findAndCount conditions order offset limit).IgnoresLog
  create : ∀ fields, (access.create fields).IgnoresLog
  updateByKey : ∀ key fields, (access.updateByKey key fields).IgnoresLog

end Access

theorem MemoryStore.access_ignoresLog : MemoryStore.access.IgnoresLog where
  findByKey key := .look fun s : MemoryStore => .ok (s.find key)
  findAndCount conditions order offset limit :=
    .look fun s : MemoryStore => s.list conditions order offset limit
  create fields := .change fun s : MemoryStore => s.create fields
  updateByKey key fields := .change fun s : MemoryStore => s.update key fields

namespace Resolver

open Step (IgnoresLog)

variable {σ : Type} {access : Access σ}

theorem readByKey_ignoresLog (h : access.IgnoresLog) (m : Model) (key : Value) :
    IgnoresLog (readByKey access m key) := by
  refine .bind (h.findByKey key) fun found => ?_
  cases found with
  | some record => exact .pure _
  | none => exact .ofResult _

theorem run_ignoresLog (h : access.IgnoresLog) (m : Model) (largest : Value) (op : Operation)
    (args : Row) : IgnoresLog (run access m largest op args) := by
  cases op with
  | read => exact .bind (.ofResult _) fun _ => readByKey_ignoresLog h m _
  | readMultiple =>
    refine .bind (.ofResult _) fun l => .bind (.log _) fun _ => .bind (h.findAndCount _ _ _ _) ?_
    exact fun _ => .pure _
  | create => exact .bind (.ofResult _) fun _ => .bind (h.create args) fun _ => .pure _
  | update =>
    refine .bind (.ofResult _) fun _ => ?_
    dsimp only
    split
    · exact .bind (.ofResult _) fun _ => .bind (h.updateByKey _ _) fun _ => readByKey_ignoresLog h m _
    · exact .bind (h.updateByKey _ _) fun _ => readByKey_ignoresLog h m _

end Resolver

namespace Api

variable {σ : Type}

/-! ## Requests -/

/-- A call of an operation by its name. -/
structure Request where
  name : String
  args : Row

/-- Whether a request is for one of the operations of an entity. -/
def Request.isFor (entity : String) (r : Request) : Bool :=
  [read, readMultiple, create, update].any fun op => r.name == op.nameFor entity

theorem Request.isFor_iff {entity : String} {r : Request} :
    r.isFor entity = true ↔ ∃ op : Operation, r.name = op.nameFor entity := by
  simp only [isFor, List.any_eq_true, beq_iff_eq]
  constructor
  · rintro ⟨op, _, h⟩
    exact ⟨op, h⟩
  · rintro ⟨op, h⟩
    exact ⟨op, by cases op <;> decide, h⟩

/-- Requests one after another: each with what it is answered, and what they leave behind. -/
def answerAll (access : Access σ) : List Request → Api σ → Log.Journal →
    List (Request × Result Value) × Api σ × Log.Journal
  | [], api, journal => ([], api, journal)
  | r :: requests, api, journal =>
    let (answer, next, journal) := api.call access journal r.name r.args
    let (later, last, journal) := answerAll access requests next journal
    ((r, answer) :: later, last, journal)

/-! ## Whose handler a name stands for -/

theorem of_mem_handlersFrom {root : Root} {start : Nat} {models : List Model} {name : String}
    {op : Operation} {k : Nat}
    (h : (name, Handler.generated op k) ∈ handlersFrom root start models) :
    ∃ i m, k = start + i ∧ models[i]? = some m ∧ name = op.nameFor m.name := by
  induction models generalizing start with
  | nil => cases h
  | cons m models ih =>
    rw [handlersFrom] at h
    rcases List.mem_append.mp h with h | h
    · obtain ⟨op', _, he⟩ := List.mem_map.mp h
      cases he
      exact ⟨0, m, rfl, rfl, rfl⟩
    · obtain ⟨i, m', rfl, hm, hname⟩ := ih h
      exact ⟨i + 1, m', by omega, hm, hname⟩

/-- A generated handler is that of an operation of the entity at its position. -/
theorem of_get?_overlay {root : Root} {custom : List CustomResolvers} {models : List Model}
    {name : String} {op : Operation} {k : Nat}
    (h : Entries.get? (overlay root custom (handlers root models)) name = some (.generated op k)) :
    ∃ m, models[k]? = some m ∧ name = op.nameFor m.name := by
  have hmem := Entries.mem_of_get? h
  rw [overlay, Entries.mergeAll_eq] at hmem
  rcases Entries.mem_merge hmem with hmem | hmem
  · obtain ⟨i, m, hk, hm, hname⟩ := of_mem_handlersFrom (Entries.mem_ofList hmem)
    rw [Nat.zero_add] at hk
    exact ⟨m, hk ▸ hm, hname⟩
  · simp only [List.mem_flatten, List.mem_map, exists_exists_and_eq_and] at hmem
    obtain ⟨c, _, e, _, he⟩ := hmem
    cases he

/-- The entity at the position is the one whose operations have the handlers of that position. -/
def Owns (api : Api σ) (i : Nat) (entity : String) : Prop :=
  ∀ name op k, api.handler? name = some (.generated op k) →
    ((∃ op : Operation, name = op.nameFor entity) ↔ k = i)

theorem owns_of_build {entities : List Entity} {supply : Supply σ}
    {extensions : List Schema.Extension} {custom : List CustomResolvers} {largest : Value}
    {api : Api σ} (h : build entities supply extensions custom largest = .ok api)
    (hu : Unshadowed (entities.map Entity.name)) {i : Nat} {x : Entity}
    (hx : entities[i]? = some x) : Owns api i x.name := by
  obtain ⟨generated, hg, rfl⟩ := build_ok h
  obtain ⟨models, document, bindings, hn, hm, _, _, rfl⟩ := generate_ok hg
  have hnames := names_of_models hm
  have hxi : (entities.map Entity.name)[i]? = some x.name := by rw [List.getElem?_map, hx]; rfl
  intro name op k hh
  obtain ⟨m, hmk, rfl⟩ : ∃ m, models[k]? = some m ∧ name = op.nameFor m.name := by
    unfold handler? at hh
    rw [Option.orElse_eq_or, Option.or_eq_some_iff] at hh
    rcases hh with hh | ⟨_, hh⟩
    · exact of_get?_overlay hh
    · exact of_get?_overlay hh
  have hmk' : (entities.map Entity.name)[k]? = some m.name := by
    rw [← hnames, List.getElem?_map, hmk]
    rfl
  constructor
  · rintro ⟨op', he⟩
    obtain ⟨_, hname⟩ := hu.nameFor_inj (List.mem_of_getElem? hmk') (List.mem_of_getElem? hxi) he
    obtain ⟨hlt, _⟩ := List.getElem?_eq_some_iff.mp hmk'
    exact (List.getElem?_inj hlt hn).mp (hmk'.trans (hname ▸ hxi.symm))
  · rintro rfl
    exact ⟨op, congrArg op.nameFor (Option.some.inj (hmk'.symm.trans hxi))⟩

/-! ## Steps -/

/-- The interfaces have the same handlers and, at the position, the same model and store. -/
structure Agree (i : Nat) (api other : Api σ) : Prop where
  handler? : ∀ name, api.handler? name = other.handler? name
  largest : api.largestPage = other.largestPage
  binding : api.bindings[i]? = other.bindings[i]?

variable {i : Nat} {api other third : Api σ} {access : Access σ} {j k : Log.Journal} {name : String}

theorem Agree.refl (i : Nat) (api : Api σ) : Agree i api api := ⟨fun _ => rfl, rfl, rfl⟩

theorem Agree.trans (h : Agree i api other) (h' : Agree i other third) : Agree i api third :=
  ⟨fun name => (h.handler? name).trans (h'.handler? name), h.largest.trans h'.largest,
    h.binding.trans h'.binding⟩

/-- Only the store at the position of the handler is touched. -/
theorem agree_setStore {n : Nat} (h : n ≠ i) (store : σ) :
    Agree i { api with bindings := setStore api.bindings n store } api := by
  refine ⟨fun _ => rfl, rfl, ?_⟩
  show (List.modify _ _ _)[i]? = _
  rw [List.getElem?_modify]
  simp only [h, if_false]
  exact Option.map_id'

theorem call_foreign (hignores : access.IgnoresLog)
    (hforeign : ∀ op n, api.handler? name = some (.generated op n) → n ≠ i) (args : Row) :
    Agree i (api.call access j name args).2.1 api ∧ Alike (api.call access j name args).2.2 j := by
  unfold call
  split
  · exact ⟨.refl i api, .refl j⟩
  · exact ⟨.refl i api, .refl j⟩
  · rename_i op n hh
    split
    · exact ⟨.refl i api, .refl j⟩
    · rename_i b hb
      obtain ⟨r, after, j', _, hrun, _, hj, _⟩ :=
        Resolver.run_ignoresLog hignores b.model api.largestPage op args b.store (.refl j)
      rw [hrun]
      exact ⟨agree_setStore (hforeign op n hh) after, hj⟩

/-- An own request is answered alike where the interfaces agree, and they agree after it. -/
theorem call_own (hignores : access.IgnoresLog) (hagree : Agree i api other) (halike : Alike j k)
    (hown : ∀ op n, api.handler? name = some (.generated op n) → n = i) (args : Row) :
    (api.call access j name args).1 = (other.call access k name args).1 ∧
      Agree i (api.call access j name args).2.1 (other.call access k name args).2.1 ∧
      Alike (api.call access j name args).2.2 (other.call access k name args).2.2 := by
  unfold call
  rw [← hagree.handler?]
  split
  · exact ⟨rfl, hagree, halike⟩
  · exact ⟨rfl, hagree, halike⟩
  · rename_i op n hh
    obtain rfl := hown op n hh
    rw [← hagree.binding, ← hagree.largest]
    split
    · exact ⟨rfl, hagree, halike⟩
    · rename_i b hb
      obtain ⟨r, after, j', k', hrun, hrun', hj, hk⟩ :=
        Resolver.run_ignoresLog hignores b.model api.largestPage op args b.store halike
      rw [hrun, hrun']
      refine ⟨rfl, ⟨hagree.handler?, rfl, ?_⟩, hj.trans (halike.trans hk.symm)⟩
      show (List.modify _ _ _)[n]? = (List.modify _ _ _)[n]?
      rw [List.getElem?_modify, List.getElem?_modify, hagree.binding]

/-! ## Runs -/

theorem handler?_call (args : Row) :
    (api.call access j name args).2.1.handler? = api.handler? := by
  unfold call
  split
  · rfl
  · rfl
  · split <;> rfl

theorem Owns.call {entity : String} (h : Owns api i entity) (args : Row) :
    Owns (api.call access j name args).2.1 i entity := by
  unfold Owns
  rw [handler?_call]
  exact h

/-- About the entity at the position, a run agrees with the run of its own requests alone. -/
theorem answerAll_agree (hignores : access.IgnoresLog) {entity : String} (howns : Owns api i entity)
    (hagree : Agree i api other) (halike : Alike j k) (requests : List Request) :
    let whole := answerAll access requests api j
    let own := answerAll access (requests.filter (·.isFor entity)) other k
    whole.1.filter (·.1.isFor entity) = own.1 ∧ Agree i whole.2.1 own.2.1 := by
  induction requests generalizing api other j k with
  | nil => exact ⟨rfl, hagree⟩
  | cons r requests ih =>
    have hnext : Owns (api.call access j r.name r.args).2.1 i entity := howns.call r.args
    simp only [answerAll]
    by_cases hr : r.isFor entity = true
    · have hown : ∀ op n, api.handler? r.name = some (.generated op n) → n = i :=
        fun op n hh => (howns _ op n hh).mp (Request.isFor_iff.mp hr)
      obtain ⟨hanswer, hagree', halike'⟩ := call_own hignores hagree halike hown r.args
      obtain ⟨hanswers, hlast⟩ := ih hnext hagree' halike'
      simp only [List.filter_cons, hr, ↓reduceIte, answerAll, hanswer, hanswers, true_and]
      exact hlast
    · have hforeign : ∀ op n, api.handler? r.name = some (.generated op n) → n ≠ i :=
        fun op n hh hn => hr (Request.isFor_iff.mpr ((howns _ op n hh).mpr hn))
      obtain ⟨hsame, hjournal⟩ := call_foreign (j := j) hignores hforeign r.args
      simp only [List.filter_cons, hr, Bool.false_eq_true, ↓reduceIte]
      exact ih hnext (hsame.trans hagree) (hjournal.trans halike)

/-! ## An entity on its own -/

/-- No custom resolver takes the place of an operation of the entity. -/
def Untouched (custom : List CustomResolvers) (entity : String) : Prop :=
  ∀ c ∈ custom, ∀ (root : Root) (op : Operation), op.nameFor entity ∉ Entries.keys (c.ofRoot root)

theorem get?_overlay_of_not_mem {root : Root} {custom : List CustomResolvers}
    (h : ∀ c ∈ custom, name ∉ Entries.keys (c.ofRoot root)) (table : List (String × Handler)) :
    Entries.get? (overlay root custom table) name = Entries.get? table name := by
  rw [overlay, Entries.mergeAll_eq]
  refine Entries.get?_merge_of_ne ⟨fun _ => beq_iff_eq, fun _ => beq_iff_eq⟩ ?_
  simp only [List.mem_flatten, List.mem_map, exists_exists_and_eq_and]
  rintro _ ⟨c, hc, e, he, rfl⟩ rfl
  exact h c hc (Entries.mem_keys_of_mem he)

theorem handler?_withCustom {custom : List CustomResolvers} {entity : String}
    (h : Untouched custom entity) (op : Operation) :
    (api.withCustom custom).handler? (op.nameFor entity) = api.handler? (op.nameFor entity) := by
  unfold handler? withCustom
  rw [get?_overlay_of_not_mem fun c hc => h c hc .query op,
    get?_overlay_of_not_mem fun c hc => h c hc .mutation op]

/-- The request for the operation of a call. -/
def requestTo (entity : String) (c : MemoryStore.Call) : Request := ⟨c.op.nameFor entity, c.args⟩

theorem exists_calls {entity : String} {requests : List Request}
    (h : ∀ r ∈ requests, r.isFor entity = true) :
    ∃ calls : List MemoryStore.Call, requests = calls.map (requestTo entity) := by
  induction requests with
  | nil => exact ⟨[], rfl⟩
  | cons r requests ih =>
    obtain ⟨hr, hrequests⟩ := List.forall_mem_cons.mp h
    obtain ⟨op, hname⟩ := Request.isFor_iff.mp hr
    obtain ⟨calls, rfl⟩ := ih hrequests
    exact ⟨⟨op, r.args⟩ :: calls, by rw [List.map_cons, requestTo, ← hname]⟩

/-- Requests for one entity alone are calls on its store. -/
theorem answerAll_calls {api : Api MemoryStore} {entity : String} {m : Model} {s : MemoryStore}
    (hhandler : ∀ op : Operation, api.handler? (op.nameFor entity) = some (.generated op i))
    (hb : api.bindings[i]? = some ⟨m, s⟩) (calls : List MemoryStore.Call) (journal : Log.Journal) :
    let run := answerAll MemoryStore.access (calls.map (requestTo entity)) api journal
    let calls := MemoryStore.runCalls m api.largestPage calls ⟨s, journal⟩
    run.1.map Prod.snd = calls.1.map Prod.snd ∧
      run.2.1.bindings[i]? = some ⟨m, calls.2.store⟩ := by
  induction calls generalizing api s journal with
  | nil => exact ⟨rfl, hb⟩
  | cons c calls ih =>
    rcases hrun : c.run m api.largestPage ⟨s, journal⟩ with ⟨answer, after⟩
    have hcall : api.call MemoryStore.access journal (c.op.nameFor entity) c.args =
        (answer, { api with bindings := setStore api.bindings i after.store }, after.journal) := by
      have hresolved : (Resolver.run MemoryStore.access m api.largestPage c.op c.args).run
        ⟨s, journal⟩ = (answer, after) := hrun
      rw [call_of_handler (hhandler c.op) hb, hresolved]
    have hb' : (setStore api.bindings i after.store)[i]? = some ⟨m, after.store⟩ := by
      rw [setStore, List.getElem?_modify, hb]
      simp
    have hhandler' : ∀ op : Operation,
        handler? { api with bindings := setStore api.bindings i after.store } (op.nameFor entity) =
          some (.generated op i) := hhandler
    obtain ⟨hanswers, hlast⟩ := ih hhandler' hb' after.journal
    simp only [List.map_cons, answerAll, requestTo, hcall, MemoryStore.runCalls, hrun]
    exact ⟨congrArg _ hanswers, hlast⟩

/-- Without custom resolvers in their place, all operations of an entity are served by the model and
the store of that entity. -/
theorem served_of_build {entities : List Entity} {supply : Supply σ}
    {extensions : List Schema.Extension} {custom : List CustomResolvers} {largest : Value}
    {api : Api σ} (h : build entities supply extensions custom largest = .ok api)
    (hu : Unshadowed (entities.map Entity.name)) {x : Entity} (hx : entities[i]? = some x) :
    ∃ m s, Model.ofEntity x = .ok m ∧ supply.storeFor x m = .ok s ∧
      api.bindings[i]? = some ⟨m, s⟩ ∧ (Untouched custom x.name →
        ∀ op : Operation, api.handler? (op.nameFor x.name) = some (.generated op i)) := by
  obtain ⟨generated, hg, rfl⟩ := build_ok h
  obtain ⟨models, document, bindings, hn, hm, _, hb, rfl⟩ := generate_ok hg
  obtain ⟨m, s, hme, hmi, hs, hbi⟩ := binding_of_entity hm hb hx
  have hnames : ∀ root, (namesUnder root (models.map Model.name)).Nodup := by
    intro root
    rw [names_of_models hm]
    exact nodup_namesUnder hn hu
  refine ⟨m, s, hme, hs, hbi, fun hfree op => ?_⟩
  rw [handler?_withCustom hfree, ← Model.ofEntity_name hme]
  have hqueries : Entries.keys (handlers .query models) =
      namesUnder .query (models.map Model.name) := by
    rw [handlers_eq (hnames .query), keys_handlersFrom]
  have hget := get?_handlers hmi (hnames op.root)
  refine handler?_eq hqueries ?_
  cases op <;> exact hget

theorem models_call (args : Row) : (api.call access j name args).2.1.models = api.models := by
  have hset : ∀ (bindings : List (Binding σ)) n store,
      (setStore bindings n store).map Binding.model = bindings.map Binding.model := by
    intro bindings n store
    apply List.ext_getElem?
    intro k
    rw [setStore, List.getElem?_map, List.getElem?_map, List.getElem?_modify]
    cases bindings[k]? with
    | none => rfl
    | some b => by_cases hn : n = k <;> simp [hn]
  unfold call
  split
  · rfl
  · rfl
  · split
    · rfl
    · exact hset _ _ _

theorem models_answerAll (requests : List Request) :
    (answerAll access requests api j).2.1.models = api.models := by
  induction requests generalizing api j with
  | nil => rfl
  | cons r requests ih =>
    simp only [answerAll]
    rw [ih, models_call]

/-- What an entity is answered, and left with, in a run of requests, some of which are for it. -/
structure Isolated (supply : Supply MemoryStore) (custom : List CustomResolvers)
    (api : Api MemoryStore) (journal : Log.Journal) (requests : List Request) (i : Nat) (x : Entity) :
    Prop where
  /-- The same as in the run of its own requests alone. -/
  apart :
    let whole := answerAll MemoryStore.access requests api journal
    let own := answerAll MemoryStore.access (requests.filter (·.isFor x.name)) api journal
    whole.1.filter (·.1.isFor x.name) = own.1 ∧ ∃ m s, Model.ofEntity x = .ok m ∧
      whole.2.1.bindings[i]? = some ⟨m, s⟩ ∧ own.2.1.bindings[i]? = some ⟨m, s⟩
  /-- And the same as calls on its own store alone are. -/
  alone : Untouched custom x.name → ∃ m s calls,
    Model.ofEntity x = .ok m ∧ supply.storeFor x m = .ok s ∧
      requests.filter (·.isFor x.name) = calls.map (requestTo x.name) ∧
      let whole := answerAll MemoryStore.access requests api journal
      let calls := MemoryStore.runCalls m api.largestPage calls ⟨s, journal⟩
      (whole.1.filter (·.1.isFor x.name)).map Prod.snd = calls.1.map Prod.snd ∧
        whole.2.1.bindings[i]? = some ⟨m, calls.2.store⟩

/-- **Entities are isolated.** In an interface over entities of which none is named for the listing
of another, and for any requests in any order, what the requests for one entity are answered and the
store that they leave behind are the same as without all other requests, and, where no custom
resolver takes the place of one of its operations, the same as of calls on its own model and store. -/
theorem entities_isolated {entities : List Entity} {supply : Supply MemoryStore}
    {extensions : List Schema.Extension} {custom : List CustomResolvers} {largest : Value}
    {api : Api MemoryStore} (h : build entities supply extensions custom largest = .ok api)
    (hu : Unshadowed (entities.map Entity.name)) (journal : Log.Journal) (requests : List Request)
    {i : Nat} {x : Entity} (hx : entities[i]? = some x) :
    Isolated supply custom api journal requests i x := by
  have howns := owns_of_build h hu hx
  obtain ⟨hanswers, hagree⟩ := answerAll_agree MemoryStore.access_ignoresLog howns (.refl i api)
    (.refl journal) requests
  obtain ⟨m, s, hm, hs, hb, hhandler⟩ := served_of_build h hu hx
  refine ⟨⟨hanswers, ?_⟩, fun hfree => ?_⟩
  · have hmodel : (answerAll MemoryStore.access (requests.filter (·.isFor x.name)) api
        journal).2.1.models[i]? = some m := by
      rw [models_answerAll, models, List.getElem?_map, hb]
      rfl
    rw [models, List.getElem?_map, Option.map_eq_some_iff] at hmodel
    obtain ⟨⟨_, last⟩, hlast, rfl⟩ := hmodel
    exact ⟨_, last, hm, hagree.binding.trans hlast, hlast⟩
  · obtain ⟨calls, hcalls⟩ : ∃ calls : List MemoryStore.Call,
        requests.filter (·.isFor x.name) = calls.map (requestTo x.name) :=
      exists_calls fun r hr => (List.mem_filter.mp hr).2
    obtain ⟨hown, hlast⟩ := answerAll_calls (hhandler hfree) hb calls journal
    rw [← hcalls] at hown hlast
    exact ⟨m, s, calls, hm, hs, hcalls, (congrArg _ hanswers).trans hown, hagree.binding.trans hlast⟩

/-- Requests for two entities in turn. Both count their keys from one. -/
theorem entities_isolated_of_user_tag :
    let user : Entity := ⟨"User", [("age", { type := .text "integer" })], .null⟩
    let tag : Entity := ⟨"Tag", [], .null⟩
    let one : Row := [(.text "id", .int 1)]
    let requests : List Request := [⟨"create_User", [(.text "age", .int 7)]⟩, ⟨"create_Tag", []⟩,
      ⟨"read_Tag", one⟩, ⟨"read_User", one⟩]
    Unshadowed ([user, tag].map Entity.name) ∧ [user, tag][0]? = some user ∧
      (requests.filter (·.isFor user.name)).map Request.name = ["create_User", "read_User"] ∧
      ∃ api, build [user, tag] emptyStores [] [] .null = .ok api ∧
        (answerAll MemoryStore.access requests api {}).1.map (·.2.isOk) = [true, true, true, true] ∧
        Isolated emptyStores [] api {} requests 0 user := by
  intro user tag one requests
  have hu : Unshadowed ["User", "Tag"] := by unfold Unshadowed; decide
  obtain ⟨api, h⟩ := Result.exists_of_isOk
    (x := build [user, tag] emptyStores [] [] .null) (by decide +kernel)
  have hanswered : (build [user, tag] emptyStores [] [] .null).toOption.map (fun api =>
      (answerAll MemoryStore.access requests api {}).1.map (·.2.isOk)) =
        some [true, true, true, true] := by decide +kernel
  rw [h] at hanswered
  exact ⟨hu, rfl, by decide +kernel, api, h, Option.some.inj hanswered,
    entities_isolated h hu {} requests rfl⟩

end Api

end EntityApi
