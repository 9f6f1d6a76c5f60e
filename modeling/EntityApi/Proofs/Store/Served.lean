import EntityApi.Proofs.Results
import EntityApi.Proofs.Steps
import EntityApi.Proofs.Store.Keys
import EntityApi.Resolver

/-! # The operations of an entity on a memory store

Each operation of an entity, run on a memory store, in terms of what the store
finds, creates and updates. Reading and listing leave the store alone, and so
does an operation that is refused (`store_of_refused`): a created record cannot
be refused any more, and neither can an update that has found its record. -/
namespace EntityApi

namespace MemoryStore

variable {s : MemoryStore} {key : Value} {fields : Row} {primaryKey : String} {rows : List Row}

theorem overlay_of_find?_eq_none (h : rows.find? (keyOf primaryKey · == key) = none) :
    (overlay primaryKey key fields rows).2 = rows := by
  induction rows with
  | nil => rfl
  | cons row rows ih =>
    rw [List.find?_cons] at h
    unfold overlay
    split at h
    · cases h
    · rename_i hk
      simp only [hk, Bool.false_eq_true, ↓reduceIte]
      rw [ih h]

/-- Updating a key under which there is nothing does nothing. -/
theorem update_of_find_eq_none (h : s.find key = none) : (s.update key fields).2 = s := by
  show { s with rows := (overlay s.primaryKey key fields s.rows).2 } = s
  rw [overlay_of_find?_eq_none h]

/-- An update leaves the record under every other key, and overlays the one under its own. -/
theorem find?_overlay (hw : WellKeyed primaryKey rows)
    (hf : Entries.get? fields (.text primaryKey) = none) (other : Value) :
    (overlay primaryKey key fields rows).2.find? (keyOf primaryKey · == other) =
      (rows.find? (keyOf primaryKey · == other)).map fun row =>
        if key == other then Entries.merge row fields else row := by
  induction rows with
  | nil => rfl
  | cons row rows ih =>
    have hwhole := hw.whole _ List.mem_cons_self
    rw [List.find?_cons]
    unfold overlay
    cases hk : keyOf primaryKey row == key with
    | true =>
      simp only [↓reduceIte, List.find?_cons, keyOf_merge hf]
      cases ho : keyOf primaryKey row == other with
      | true => simp [Value.beq_trans_of_index? hwhole ho, hk]
      | false =>
        -- whatever is found further down has another key than the row that was overlaid
        cases hfind : rows.find? (keyOf primaryKey · == other) with
        | none => rfl
        | some found =>
          have hmem := List.mem_of_find?_eq_some hfind
          have heq : (keyOf primaryKey found == other) = true := by
            simpa using List.find?_some hfind
          have hkeys : keyOf primaryKey found ∈ keysOf primaryKey rows := List.mem_map_of_mem hmem
          have hne : (keyOf primaryKey row == keyOf primaryKey found) = false :=
            (List.pairwise_cons.mp hw.distinct).1 _ hkeys
          have hno : (key == other) = false := by
            rw [Value.beq_trans_of_index? (hw.tail.whole _ hkeys) heq,
              Value.beq_trans_of_index? hwhole hk, hne]
          simp [hno]
    | false =>
      simp only [Bool.false_eq_true, ↓reduceIte, List.find?_cons]
      cases ho : keyOf primaryKey row == other with
      | true => simp [Value.beq_trans_of_index? hwhole ho, hk]
      | false => exact ih hw.tail

theorem find_update (hw : WellKeyed s.primaryKey s.rows)
    (hf : Entries.get? fields (.text s.primaryKey) = none) (other : Value) :
    (s.update key fields).2.find other =
      (s.find other).map fun row => if key == other then Entries.merge row fields else row :=
  find?_overlay hw hf other

theorem matching_nil (rows : List Row) : matching [] rows = .ok rows := by
  induction rows with
  | nil => rfl
  | cons row rows ih =>
    unfold matching Condition.allHold
    rw [ih]
    rfl

/-- A listing without conditions counts all rows. -/
theorem count_of_list {order : List Value} {offset limit : Value} {count : Int}
    (h : s.list [] order offset limit = .ok (count, rows)) : count = s.rows.length := by
  unfold list at h
  rw [matching_nil, Result.ok_bind] at h
  obtain ⟨sorted, _, h⟩ := Result.bind_eq_ok.mp h
  obtain ⟨page, _, h⟩ := Result.bind_eq_ok.mp h
  cases h
  rfl

/-- A listing without conditions and ordering is answered whenever its bounds are whole numbers. -/
theorem list_eq_ok (s : MemoryStore) (offset limit : Int) : ∃ rows,
    s.list [] [] (.int offset) (.int limit) = .ok ((s.rows.length : Nat), rows) := by
  refine ⟨slice offset (offset + limit) s.rows, ?_⟩
  unfold list
  rw [matching_nil]
  rfl

end MemoryStore

namespace MemoryStore

variable {session : Session MemoryStore}

theorem run_findByKey (key : Value) :
    (access.findByKey key).run session = (.ok (session.store.find key), session) := rfl

theorem run_create (fields : Row) : (access.create fields).run session =
    (.ok (session.store.create fields).1,
      { session with store := (session.store.create fields).2 }) := rfl

theorem run_updateByKey (key : Value) (fields : Row) : (access.updateByKey key fields).run session =
    (.ok (session.store.update key fields).1,
      { session with store := (session.store.update key fields).2 }) := rfl

end MemoryStore

namespace Resolver

/-- Names among the arguments that are not accepted have every operation but a listing refused at
once, whatever the store. -/
theorem run_of_checkNames_error {σ : Type} {access : Access σ} {session : Session σ} {m : Model}
    {largest : Value} {args : Row} {op : Operation} {e : Failure} (h : checkNames args = .error e)
    (hop : op ≠ .readMultiple) :
    (run access m largest op args).run session = (.error e, session) := by
  cases op with
  | readMultiple => exact absurd rfl hop
  | read =>
    simp only [run, read, h]
    exact Step.run_bind_of_error (Step.run_ofResult _)
  | create =>
    simp only [run, create, h]
    exact Step.run_bind_of_error (Step.run_ofResult _)
  | update =>
    simp only [run, update, h]
    exact Step.run_bind_of_error (Step.run_ofResult _)

/-- An update without a key is refused, whatever the store. -/
theorem run_update_without_key {σ : Type} {access : Access σ} {session : Session σ} {m : Model}
    {args : Row} (h : checkNames args = .ok ())
    (hk : (Value.field args m.primaryKey.name).isNull = true) :
    (update access m args).run session =
      (.error (.invalidArgument (.noKey m.name m.primaryKey.name)), session) := by
  unfold update
  rw [h, Step.run_bind_of_ok (Step.run_ofResult _)]
  simp only [hk, ↓reduceIte]
  exact Step.run_bind_of_error (Step.run_ofResult _)

open MemoryStore (access)

variable {m : Model} {largest : Value} {args : Row} {session later : Session MemoryStore}

/-! ## Reading, creating, updating -/

/-- What a reading by key answers, by what there is under the key. -/
def answerFor (m : Model) (key : Value) : Option Row → Result Value
  | some record => .ok (.map record)
  | none => notFound m key

theorem run_readByKey (m : Model) (key : Value) (session : Session MemoryStore) :
    (readByKey access m key).run session = (answerFor m key (session.store.find key), session) := by
  unfold readByKey
  rw [Step.run_bind_of_ok (MemoryStore.run_findByKey key)]
  cases session.store.find key <;> rfl

theorem run_read (h : checkNames args = .ok ()) : (read access m args).run session =
    (answerFor m (Value.field args m.primaryKey.name)
      (session.store.find (Value.field args m.primaryKey.name)), session) := by
  unfold read
  rw [h, Step.run_bind_of_ok (Step.run_ofResult _), run_readByKey]

theorem run_create (h : checkNames args = .ok ()) : (create access args).run session =
    (.ok (.map (session.store.create args).1),
      { session with store := (session.store.create args).2 }) := by
  unfold create
  rw [h, Step.run_bind_of_ok (Step.run_ofResult _)]
  exact Step.run_bind_of_ok (MemoryStore.run_create args)

theorem run_update (h : checkNames args = .ok ())
    (hk : (Value.field args m.primaryKey.name).isNull = false) :
    (update access m args).run session =
      (let key := Value.field args m.primaryKey.name
       let changed := (session.store.update key (Entries.remove args (.text m.primaryKey.name))).2
       (answerFor m key (changed.find key), { session with store := changed })) := by
  unfold update
  rw [h, Step.run_bind_of_ok (Step.run_ofResult _)]
  simp only [hk, Bool.false_eq_true, ↓reduceIte]
  rw [Step.run_bind_of_ok (MemoryStore.run_updateByKey _ _), run_readByKey]

/-- Nothing under a key is a failure, which names the key if the key has a text. -/
theorem answerFor_none (m : Model) (key : Value) : ∃ e, answerFor m key none = .error e ∧
    ∀ shown, key.shown? = .ok shown → e = .notFound m.name shown := by
  unfold answerFor notFound
  cases key.shown? with
  | error e => exact ⟨e, rfl, nofun⟩
  | ok text =>
    refine ⟨.notFound m.name text, rfl, ?_⟩
    intro shown h
    rw [Except.ok.inj h]

/-! ## Planning a listing -/

/-- What a planned listing is to meet is what the filter compiles to. -/
theorem plan_conditions {l : Listing} (h : plan largest args = .ok l) :
    Filter.compile (Value.field args "filter_options") = .ok l.conditions := by
  unfold plan at h
  obtain ⟨⟨⟩, _, h⟩ := Result.bind_eq_ok.mp h
  obtain ⟨low, _, h⟩ := Result.bind_eq_ok.mp h
  cases low with
  | true =>
    obtain ⟨text, _, h⟩ := Result.bind_eq_ok.mp h
    cases h
  | false =>
    obtain ⟨negative, _, h⟩ := Result.bind_eq_ok.mp h
    cases negative with
    | true =>
      obtain ⟨text, _, h⟩ := Result.bind_eq_ok.mp h
      cases h
    | false =>
      obtain ⟨limit, _, h⟩ := Result.bind_eq_ok.mp h
      obtain ⟨conditions, hc, h⟩ := Result.bind_eq_ok.mp h
      cases h
      exact hc

theorem conditions_of_unfiltered {l : Listing} (h : plan largest args = .ok l)
    (hf : (Value.field args "filter_options").truthy = false) : l.conditions = [] := by
  have hc := plan_conditions h
  unfold Filter.compile at hc
  rw [hf] at hc
  exact (Except.ok.inj hc).symm

theorem before_int (a b : Int) : Value.before true (.int a) (.int b) = .ok (decide (a < b)) := by
  simp [Value.before, Value.number?, Value.beforeNumber, Value.isDecimal, Exact.less_ofInt]

theorem isNegative_int (n : Int) : isNegative (.int n) = .ok (decide (n < 0)) := before_int n 0

theorem clamp_int (hl : largest = .null ∨ ∃ n, largest = .int n) (n : Int) :
    ∃ cut, clamp largest (.int n) = .ok (.int cut) := by
  obtain rfl | ⟨top, rfl⟩ := hl
  · exact ⟨n, rfl⟩
  · refine ⟨if top < n then top else n, ?_⟩
    unfold clamp
    rw [before_int]
    by_cases h : top < n <;> simp [Value.isNull, h] <;> rfl

/-- A listing that asks for rows by position only. -/
structure Plain (args : Row) : Prop where
  names : checkListingNames args = .ok ()
  offset : ∃ n, (Entries.get? args (.text "offset")).getD (.int 0) = .int n ∧ 0 ≤ n
  limit : ∃ n, (Entries.get? args (.text "limit")).getD (.int 0) = .int n ∧ 0 ≤ n
  unfiltered : (Value.field args "filter_options").truthy = false
  unordered : (Value.field args "order_column").truthy = false

theorem plan_of_plain (h : Plain args) (hl : largest = .null ∨ ∃ n, largest = .int n) :
    ∃ offset limit, plan largest args = .ok ⟨[], [], .int offset, .int limit⟩ := by
  obtain ⟨offset, ho, ho'⟩ := h.offset
  obtain ⟨limit, hm, hm'⟩ := h.limit
  obtain ⟨cut, hcut⟩ := clamp_int hl limit
  refine ⟨offset, cut, ?_⟩
  have hcompile :
      Filter.compile ((Entries.get? args (.text "filter_options")).getD .null) = .ok [] := by
    have := h.unfiltered
    unfold Filter.compile
    change (Value.truthy ((Entries.get? args _).getD .null)) = false at this
    rw [this]
    rfl
  have horder : ∀ direction, Filter.compileOrder
      ((Entries.get? args (.text "order_column")).getD .null) direction = [] := by
    intro direction
    have := h.unordered
    change (Value.truthy ((Entries.get? args _).getD .null)) = false at this
    simp [Filter.compileOrder, this]
  have hno : ∀ n : Int, 0 ≤ n → isNegative (.int n) = .ok false := by
    intro n hn
    rw [isNegative_int]
    simpa using hn
  unfold plan
  simp only [h.names, ho, hm, hno offset ho', hno limit hm', hcut, hcompile, horder]
  rfl

/-! ## Listing -/

theorem run_readMultiple_of_plan {l : Listing} (h : plan largest args = .ok l) :
    (readMultiple access m largest args).run session =
      ((Step.log (l.event m) >>= fun _ => do
        let (count, rows) ← Step.look fun s => s.list l.conditions l.order l.offset l.limit
        return .map [(.text "count", .int count), (.text "rows", .list (rows.map .map))]) :
          Step MemoryStore Value).run session := by
  unfold readMultiple
  rw [h, Step.run_bind_of_ok (Step.run_ofResult _)]
  rfl

theorem run_readMultiple_store :
    ((readMultiple access m largest args).run session).2.store = session.store := by
  cases hp : plan largest args with
  | error e =>
    unfold readMultiple
    rw [hp, Step.run_bind_of_error (Step.run_ofResult _)]
  | ok l =>
    rw [run_readMultiple_of_plan hp]
    have hlog := Step.run_log_store (l.event m) session
    rcases hr : (Step.log (l.event m)).run session with ⟨e | ⟨⟩, later⟩
    all_goals rw [hr] at hlog
    · rw [Step.run_bind_of_error hr]; exact hlog
    · rw [Step.run_bind_of_ok hr, Step.run_bind, Step.run_look]
      cases later.store.list l.conditions l.order l.offset l.limit <;> exact hlog

/-- A listing that answers was planned and carried out. -/
theorem readMultiple_eq_ok {v : Value}
    (h : (readMultiple access m largest args).run session = (.ok v, later)) :
    ∃ l count rows, plan largest args = .ok l ∧
      session.store.list l.conditions l.order l.offset l.limit = .ok (count, rows) ∧
      v = .map [(.text "count", .int count), (.text "rows", .list (rows.map .map))] := by
  cases hp : plan largest args with
  | error e =>
    unfold readMultiple at h
    rw [hp, Step.run_bind_of_error (Step.run_ofResult _)] at h
    cases h
  | ok l =>
    rw [run_readMultiple_of_plan hp] at h
    have hlog := Step.run_log_store (l.event m) session
    rcases hr : (Step.log (l.event m)).run session with ⟨e | ⟨⟩, logged⟩
    · rw [Step.run_bind_of_error hr] at h; cases h
    · rw [hr] at hlog
      rw [Step.run_bind_of_ok hr, Step.run_bind, Step.run_look, hlog] at h
      cases hlist : session.store.list l.conditions l.order l.offset l.limit with
      | error e => rw [hlist] at h; cases h
      | ok counted =>
        rw [hlist] at h
        cases h
        exact ⟨l, counted.1, counted.2, rfl, hlist, rfl⟩

/-- Where debugging is not journalled, a plain listing is answered, with the count of all rows. -/
theorem run_readMultiple_of_plain (h : Plain args) (hl : largest = .null ∨ ∃ n, largest = .int n)
    (hq : session.journal.admits Log.debug = false) :
    ∃ page, ((readMultiple access m largest args).run session).1 = .ok (.map
      [(.text "count", .int session.store.rows.length), (.text "rows", .list page)]) := by
  obtain ⟨offset, limit, hplan⟩ := plan_of_plain h hl
  obtain ⟨rows, hlist⟩ := session.store.list_eq_ok offset limit
  have hrecord : session.journal.record (Listing.event ⟨[], [], .int offset, .int limit⟩ m) =
      .ok session.journal := by
    unfold Log.Journal.record
    simp only [Listing.event, hq]
    rfl
  refine ⟨rows.map .map, ?_⟩
  rw [run_readMultiple_of_plan hplan, Step.run_bind_of_ok (Step.run_log_of_ok hrecord),
    Step.run_bind, Step.run_look, hlist]
  rfl

/-- A listing without filters that answers, however it is ordered, counts all rows. -/
theorem count_of_readMultiple {v : Value} (hf : (Value.field args "filter_options").truthy = false)
    (h : ((readMultiple access m largest args).run session).1 = .ok v) : ∃ page, v = .map
      [(.text "count", .int session.store.rows.length), (.text "rows", .list page)] := by
  obtain ⟨l, count, rows, hplan, hlist, rfl⟩ := readMultiple_eq_ok (Prod.ext h rfl)
  rw [conditions_of_unfiltered hplan hf] at hlist
  exact ⟨rows.map .map, by rw [MemoryStore.count_of_list hlist]⟩

end Resolver

end EntityApi
