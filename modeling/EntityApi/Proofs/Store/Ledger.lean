import EntityApi.Proofs.Store.Updates

/-! # A memory store follows the ledger of its calls

The store is a list that is searched from the front, beside a counter. What it
answers can be told without either, from the ledger of what was stored and
overlaid: a key reads as the record first stored under it with every later
overlay of that key (`recordAt`). The invariant (`Tracks`) has the counter above
all keys, so that a generated key is new; one lemma for each kind of write keeps
it, and a run of calls keeps it by induction (`Tracks.runCalls`). -/
namespace EntityApi.MemoryStore

/-! ## Calls and their ledger -/

/-- A call of one of the four operations of an entity. -/
structure Call where
  op : Operation
  args : Row

def Call.run (c : Call) (m : Model) (largest : Value) (session : Session MemoryStore) :
    Result Value × Session MemoryStore :=
  (Resolver.run access m largest c.op c.args).run session

/-- Calls one after another: each with what it is answered, and what they leave behind. -/
def runCalls (m : Model) (largest : Value) :
    List Call → Session MemoryStore → List (Call × Result Value) × Session MemoryStore
  | [], session => ([], session)
  | c :: calls, session =>
    let (answer, next) := c.run m largest session
    let (later, last) := runCalls m largest calls next
    ((c, answer) :: later, last)

/-- What a ledger records: a new record, or fields that went over the record under a key. -/
inductive Entry where
  | stored (record : Row)
  | overlaid (key : Value) (fields : Row)

def Entry.isStored : Entry → Bool
  | stored _ => true
  | overlaid _ _ => false

/-- The fields that went over the record under a key, in order. -/
def overlaysOf (key : Value) (ledger : List Entry) : List Row :=
  ledger.filterMap fun
    | .stored _ => none
    | .overlaid k fields => if k == key then some fields else none

/-- The record first stored under a key, overlaid with all that went over that key later. -/
def recordAt (primaryKey : String) (key : Value) : List Entry → Option Row
  | [] => none
  | .stored record :: ledger =>
    if keyOf primaryKey record == key then some (Entries.mergeAll record (overlaysOf key ledger))
    else recordAt primaryKey key ledger
  | .overlaid _ _ :: ledger => recordAt primaryKey key ledger

/-- The key of the record that an operation answers with. -/
def answeredKey (primaryKey : String) : Value → Value
  | .map record => Value.field record primaryKey
  | _ => .null

/-- What an answered call adds to the ledger: the arguments of a creation, with the key that was
given to them, or those of an update, without the key that they name. -/
def entryOf (primaryKey : String) : Call × Result Value → Option Entry
  | (⟨.create, args⟩, .ok answer) =>
    some (.stored (args ++ [(.text primaryKey, answeredKey primaryKey answer)]))
  | (⟨.update, args⟩, .ok _) =>
    some (.overlaid (Value.field args primaryKey) (Entries.remove args (.text primaryKey)))
  | _ => none

/-- The ledger of rows that were there and of calls with their answers. -/
def ledgerOf (primaryKey : String) (rows : List Row) (answered : List (Call × Result Value)) :
    List Entry :=
  rows.map .stored ++ answered.filterMap (entryOf primaryKey)

/-- Whether a call created a record. -/
def isCreation : Call × Result Value → Bool
  | (c, answer) => decide (c.op = .create) && answer.isOk

/-! ## Reading a ledger -/

variable {primaryKey : String} {key : Value} {ledger : List Entry} {rows : List Row}

theorem recordAt_map_stored (rows : List Row) :
    recordAt primaryKey key (rows.map .stored) = rows.find? (keyOf primaryKey · == key) := by
  induction rows with
  | nil => rfl
  | cons row rows ih =>
    have hnone : overlaysOf key (rows.map .stored) = [] := by
      simp [overlaysOf, List.filterMap_map]
    rw [List.find?_cons, List.map_cons, recordAt, ih, hnone]
    cases keyOf primaryKey row == key <;> rfl

theorem recordAt_append_stored (ledger : List Entry) (record : Row) :
    recordAt primaryKey key (ledger ++ [.stored record]) =
      (recordAt primaryKey key ledger).or
        (if keyOf primaryKey record == key then some record else none) := by
  induction ledger with
  | nil => simp [recordAt, overlaysOf, Entries.mergeAll]
  | cons e ledger ih =>
    cases e with
    | overlaid k fields => simpa [recordAt] using ih
    | stored first =>
      have hover : overlaysOf key (ledger ++ [.stored record]) = overlaysOf key ledger := by
        simp [overlaysOf, List.filterMap_append]
      rw [List.cons_append, recordAt, recordAt, hover, ih]
      split <;> simp

theorem recordAt_append_overlaid (ledger : List Entry) (k : Value) (fields : Row) :
    recordAt primaryKey key (ledger ++ [.overlaid k fields]) =
      (recordAt primaryKey key ledger).map fun record =>
        if k == key then Entries.merge record fields else record := by
  induction ledger with
  | nil => rfl
  | cons e ledger ih =>
    cases e with
    | overlaid k' fields' => simpa [recordAt] using ih
    | stored first =>
      rw [List.cons_append, recordAt, recordAt, ih]
      split
      · cases hk : k == key <;>
          simp [overlaysOf, List.filterMap_append, hk, Entries.mergeAll, List.foldl_append]
      · rfl

/-! ## The invariant -/

/-- The store holds what the ledger says, under distinct keys that the counter is past. -/
structure Tracks (primaryKey : String) (s : MemoryStore) (ledger : List Entry) : Prop where
  column : s.primaryKey = primaryKey
  generates : s.autoIncrement = true
  keyed : WellKeyed primaryKey s.rows
  past : ∀ k ∈ keysOf primaryKey s.rows, ∀ n, k.index? = some n → n < s.nextKey
  find : ∀ key, s.find key = recordAt primaryKey key ledger
  count : s.rows.length = ledger.countP Entry.isStored

variable {s : MemoryStore} {fields : Row}

theorem Tracks.ofRows (hw : WellKeyed primaryKey rows) (reportsCount : Bool) :
    Tracks primaryKey (ofRows primaryKey rows true reportsCount) (rows.map .stored) where
  column := rfl
  generates := rfl
  keyed := hw
  past k hk n hn := by
    have := le_largestKey hk hn
    exact Int.lt_add_one_of_le this
  find key := (recordAt_map_stored rows).symm
  count := by
    rw [List.countP_map]
    exact (List.countP_eq_length.mpr fun _ _ => rfl).symm

/-- The counter shows a key that is not in use. -/
theorem Tracks.nextKey_new (h : Tracks primaryKey s ledger) :
    ∀ k ∈ keysOf primaryKey s.rows, (k == .int s.nextKey) = false := by
  intro k hk
  obtain ⟨n, hn⟩ := Option.isSome_iff_exists.mp (h.keyed.whole k hk)
  have hlt := h.past k hk n hn
  rw [Value.beq_of_index?_index? hn rfl]
  exact beq_eq_false_iff_ne.mpr (Int.ne_of_lt hlt)

theorem Tracks.create (h : Tracks primaryKey s ledger)
    (hf : Entries.get? fields (.text primaryKey) = none) :
    (s.create fields).1 = fields ++ [(.text primaryKey, .int s.nextKey)] ∧
      Tracks primaryKey (s.create fields).2
        (ledger ++ [.stored (fields ++ [(.text primaryKey, .int s.nextKey)])]) := by
  obtain rfl := h.column
  have hnull : (keyOf s.primaryKey fields).isNull = true := by
    unfold keyOf Value.field Value.lookup
    rw [hf]
    rfl
  have hput := put_key_eq_append hf (.int s.nextKey)
  have hkey := keyOf_append_key hf (.int s.nextKey)
  rw [create_without_key h.generates hnull, hput]
  refine ⟨rfl, rfl, h.generates, ?_, ?_, ?_, ?_⟩
  · refine h.keyed.append (by rw [hkey]; rfl) ?_
    rw [hkey]
    exact h.nextKey_new
  · intro k hk n hn
    rw [keysOf_append] at hk
    rcases List.mem_append.mp hk with hk | hk
    · exact Int.lt_add_one_of_le (Int.le_of_lt (h.past k hk n hn))
    · rw [List.mem_singleton.mp hk, hkey] at hn
      obtain rfl := Option.some.inj hn
      exact Int.lt_succ _
  · intro key
    rw [recordAt_append_stored, ← h.find]
    show List.find? _ (s.rows ++ [_]) = _
    rw [List.find?_append, List.find?_singleton]
    rfl
  · simp [h.count, Entry.isStored]

theorem Tracks.update (h : Tracks primaryKey s ledger)
    (hf : Entries.get? fields (.text primaryKey) = none) (key : Value) :
    Tracks primaryKey (s.update key fields).2 (ledger ++ [.overlaid key fields]) := by
  obtain rfl := h.column
  refine ⟨rfl, h.generates, h.keyed.overlay hf, ?_, ?_, ?_⟩
  · intro k hk
    exact h.past k (keysOf_overlay hf ▸ hk)
  · intro other
    rw [recordAt_append_overlaid, find_update h.keyed hf, h.find]
  · have hlen : (keysOf s.primaryKey (overlay s.primaryKey key fields s.rows).2).length =
        (keysOf s.primaryKey s.rows).length := congrArg List.length (keysOf_overlay hf)
    simp only [keysOf, List.length_map] at hlen
    show (overlay s.primaryKey key fields s.rows).2.length = _
    simp [hlen, h.count, Entry.isStored]

/-! ## What a call does -/

section

variable {m : Model} {session : Session MemoryStore} {c : Call}

/-- Every call either leaves the store as it is and adds nothing to the ledger, or is answered and
adds the entry of what it stored or overlaid. -/
theorem Tracks.call (h : Tracks m.primaryKey.name session.store ledger) (largest : Value)
    (hc : c.op = .create → Entries.get? c.args (.text m.primaryKey.name) = none) :
    ((c.run m largest session).2.store = session.store ∧
        entryOf m.primaryKey.name (c, (c.run m largest session).1) = none) ∨
      ∃ answer e, (c.run m largest session).1 = .ok answer ∧
        entryOf m.primaryKey.name (c, .ok answer) = some e ∧
        Tracks m.primaryKey.name (c.run m largest session).2.store (ledger ++ [e]) := by
  obtain ⟨op, args⟩ := c
  simp only [Call.run]
  by_cases hop : op = .readMultiple
  · subst hop
    exact .inl ⟨Resolver.run_readMultiple_store, rfl⟩
  cases hn : Resolver.checkNames args with
  | error e =>
    rw [Resolver.run_of_checkNames_error hn hop]
    refine .inl ⟨rfl, ?_⟩
    cases op <;> rfl
  | ok =>
    cases op with
    | readMultiple => exact absurd rfl hop
    | read =>
      simp only [Resolver.run, Resolver.run_read hn]
      exact .inl ⟨trivial, rfl⟩
    | create =>
      obtain ⟨hrow, htracks⟩ := h.create (hc rfl)
      have hkey : answeredKey m.primaryKey.name
          (.map (args ++ [(.text m.primaryKey.name, .int session.store.nextKey)])) =
            .int session.store.nextKey := keyOf_append_key (hc rfl) _
      simp only [Resolver.run, Resolver.run_create hn, hrow]
      refine .inr ⟨_, _, rfl, rfl, ?_⟩
      rw [hkey]
      exact htracks
    | update =>
      simp only [Resolver.run]
      cases hk : (Value.field args m.primaryKey.name).isNull with
      | true =>
        rw [Resolver.run_update_without_key hn hk]
        exact .inl ⟨rfl, rfl⟩
      | false =>
        have hrest : Entries.get? (Entries.remove args (.text m.primaryKey.name))
            (.text m.primaryKey.name) = none := Entries.get?_remove_self _ args
        rw [Resolver.run_update hn hk]
        dsimp only
        cases hfind : session.store.find (Value.field args m.primaryKey.name) with
        | none =>
          obtain ⟨e, he, _⟩ := Resolver.answerFor_none m (Value.field args m.primaryKey.name)
          rw [update_of_find_eq_none hfind, hfind, he]
          exact .inl ⟨rfl, rfl⟩
        | some record =>
          have htracks := h.update hrest (Value.field args m.primaryKey.name)
          have hkeyed : WellKeyed session.store.primaryKey session.store.rows := by
            rw [h.column]; exact h.keyed
          rw [find_update hkeyed (by rw [h.column]; exact hrest), hfind]
          exact .inr ⟨_, _, rfl, rfl, htracks⟩

/-- A call that is refused leaves the store alone. -/
theorem Tracks.store_of_refused (h : Tracks m.primaryKey.name session.store ledger)
    {largest : Value} {e : Failure}
    (hr : (c.run m largest session).1 = .error e) :
    (c.run m largest session).2.store = session.store := by
  by_cases hop : c.op = .create
  · obtain ⟨op, args⟩ := c
    obtain rfl : op = .create := hop
    cases hn : Resolver.checkNames args with
    | error e' =>
      have hcreate : Operation.create ≠ .readMultiple := by decide
      simp only [Call.run, Resolver.run_of_checkNames_error hn hcreate]
    | ok =>
      -- a creation that is let through is answered
      simp only [Call.run, Resolver.run, Resolver.run_create hn] at hr
      cases hr
  · rcases h.call largest (fun hc => absurd hc hop) with ⟨hsame, _⟩ | ⟨answer, _, hok, _⟩
    · exact hsame
    · rw [hr] at hok; cases hok

theorem Tracks.runCalls (session : Session MemoryStore)
    (h : Tracks m.primaryKey.name session.store ledger) (largest : Value) {calls : List Call}
    (hc : ∀ c ∈ calls, c.op = .create → Entries.get? c.args (.text m.primaryKey.name) = none) :
    Tracks m.primaryKey.name (MemoryStore.runCalls m largest calls session).2.store
      (ledger ++ (MemoryStore.runCalls m largest calls session).1.filterMap
        (entryOf m.primaryKey.name)) := by
  induction calls generalizing session ledger with
  | nil => simpa [MemoryStore.runCalls] using h
  | cons c calls ih =>
    have hrest : ∀ c ∈ calls, c.op = .create →
        Entries.get? c.args (.text m.primaryKey.name) = none :=
      fun c hm => hc c (List.mem_cons_of_mem _ hm)
    show Tracks _ (MemoryStore.runCalls m largest calls (c.run m largest session).2).2.store
      (ledger ++ List.filterMap _ ((c, (c.run m largest session).1) :: _))
    rcases h.call largest (hc c List.mem_cons_self) with
      ⟨hsame, hnone⟩ | ⟨answer, e, hok, hentry, htracks⟩
    · rw [List.filterMap_cons_none hnone]
      exact ih _ (by rw [hsame]; exact h) hrest
    · rw [hok, List.filterMap_cons_some hentry, List.append_cons]
      exact ih _ htracks hrest

end

/-- The records of a ledger are the rows that were there and those that calls created. -/
theorem countP_ledgerOf (rows : List Row) (answered : List (Call × Result Value)) :
    (ledgerOf primaryKey rows answered).countP Entry.isStored =
      rows.length + answered.countP isCreation := by
  have hrows : (rows.map Entry.stored).countP Entry.isStored = rows.length := by
    rw [List.countP_map]
    exact List.countP_eq_length.mpr fun _ _ => rfl
  have hcalls : (answered.filterMap (entryOf primaryKey)).countP Entry.isStored =
      answered.countP isCreation := by
    induction answered with
    | nil => rfl
    | cons a answered ih =>
      obtain ⟨⟨op, args⟩, answer⟩ := a
      rw [List.countP_cons, ← ih]
      cases op <;> cases answer <;>
        simp [entryOf, isCreation, List.filterMap_cons, List.countP_cons, Entry.isStored,
          Except.isOk, Except.toBool]
  rw [ledgerOf, List.countP_append, hrows, hcalls]

/-! ## Runs -/

/-- No record was stored under the key. -/
def Unstored (primaryKey : String) (key : Value) (ledger : List Entry) : Prop :=
  ∀ record, .stored record ∈ ledger → (keyOf primaryKey record == key) = false

theorem recordAt_eq_none (h : Unstored primaryKey key ledger) :
    recordAt primaryKey key ledger = none := by
  induction ledger with
  | nil => rfl
  | cons e ledger ih =>
    have hrest := ih fun record hm => h record (List.mem_cons_of_mem _ hm)
    cases e with
    | overlaid k fields => exact hrest
    | stored record =>
      rw [recordAt, h record List.mem_cons_self]
      exact hrest

/-- What a store answers after calls, by the ledger of the rows it started with and those calls.
Names that a resolver has for itself are not for its callers, so a key under such a name cannot be
read; and a key that cannot be shown, since a number in it is too long, is not told to be missing. -/
structure Follows (m : Model) (largest : Value) (rows : List Row)
    (answered : List (Call × Result Value)) (session : Session MemoryStore) : Prop where
  keyed : WellKeyed m.primaryKey.name session.store.rows
  reading : ∀ args record, Resolver.Callable args →
    recordAt m.primaryKey.name (Value.field args m.primaryKey.name)
      (ledgerOf m.primaryKey.name rows answered) = some record →
    (Call.mk .read args).run m largest session = (.ok (.map record), session)
  missing : ∀ args, Resolver.Callable args →
    Unstored m.primaryKey.name (Value.field args m.primaryKey.name)
      (ledgerOf m.primaryKey.name rows answered) →
    ¬(Value.field args m.primaryKey.name).Outsized →
    ∃ shown, (Value.field args m.primaryKey.name).shown? = .ok shown ∧
      (Call.mk .read args).run m largest session = (.error (.notFound m.name shown), session)
  outsized : ∀ args, Resolver.Callable args →
    Unstored m.primaryKey.name (Value.field args m.primaryKey.name)
      (ledgerOf m.primaryKey.name rows answered) →
    (Value.field args m.primaryKey.name).Outsized →
    (Call.mk .read args).run m largest session = (.error Value.overlong, session)
  counting : ∀ args answer, (Value.field args "filter_options").truthy = false →
    ((Call.mk .readMultiple args).run m largest session).1 = .ok answer →
    ∃ page, answer = .map [(.text "count", .int (rows.length + answered.countP isCreation : Nat)),
      (.text "rows", .list page)]
  listing : ∀ args, Resolver.Plain args → (largest = .null ∨ ∃ n, largest = .int n) →
    session.journal.admits Log.debug = false →
    ∃ answer, ((Call.mk .readMultiple args).run m largest session).1 = .ok answer
  refusing : ∀ (c : Call) e, (c.run m largest session).1 = .error e →
    (c.run m largest session).2.store.rows = session.store.rows

/-- Reading under a key without a record ends in the search for the text of that key. -/
theorem Tracks.run_read_unstored {m : Model} {largest : Value} {session : Session MemoryStore}
    {args : Row} (h : Tracks m.primaryKey.name session.store ledger) (hargs : Resolver.Callable args)
    (hm : Unstored m.primaryKey.name (Value.field args m.primaryKey.name) ledger) :
    (Call.mk .read args).run m largest session =
      (Resolver.notFound m (Value.field args m.primaryKey.name), session) := by
  simp only [Call.run, Resolver.run, Resolver.run_read hargs.checkNames, h.find,
    recordAt_eq_none hm]
  rfl

theorem Tracks.follows {m : Model} {largest : Value} {answered : List (Call × Result Value)}
    {session : Session MemoryStore}
    (h : Tracks m.primaryKey.name session.store (ledgerOf m.primaryKey.name rows answered)) :
    Follows m largest rows answered session where
  keyed := h.keyed
  reading args record hargs hr := by
    simp only [Call.run, Resolver.run, Resolver.run_read hargs.checkNames, h.find, hr]
    rfl
  missing args hargs hm hsize := by
    obtain ⟨shown, hshown⟩ := (Value.exists_shown?_iff _).mpr hsize
    refine ⟨shown, hshown, ?_⟩
    rw [h.run_read_unstored hargs hm, Resolver.notFound, hshown]
    rfl
  outsized args hargs hm hsize := by
    rw [h.run_read_unstored hargs hm, Resolver.notFound, Value.shown?_of_outsized hsize]
    rfl
  counting args answer hf ha := by
    obtain ⟨page, rfl⟩ := Resolver.count_of_readMultiple hf ha
    rw [h.count, countP_ledgerOf]
    exact ⟨page, rfl⟩
  listing args hp hl hq := by
    obtain ⟨page, ha⟩ := Resolver.run_readMultiple_of_plain hp hl hq
    exact ⟨_, ha⟩
  refusing c e hr := congrArg MemoryStore.rows (h.store_of_refused hr)

/-- **A memory store follows the ledger of its calls.** After any calls of the four operations on a
store that started with distinct whole numbers as keys, none of which passes a key to a creation,
the keys are distinct, a key reads as the record stored under it with all later overlays, one never
stored is not found if it can be shown, a listing without filters counts the rows there were and those
created, and a call that is refused leaves all rows as they are. -/
theorem calls_follow_ledger {m : Model} {rows : List Row} (hw : WellKeyed m.primaryKey.name rows)
    (reportsCount : Bool) (journal : Log.Journal) (largest : Value) {calls : List Call}
    (hc : ∀ c ∈ calls, c.op = .create → Entries.get? c.args (.text m.primaryKey.name) = none) :
    let (answered, last) := runCalls m largest calls
      ⟨ofRows m.primaryKey.name rows true reportsCount, journal⟩
    Follows m largest rows answered last := by
  have hstart := Tracks.ofRows hw reportsCount
  have hrun := Tracks.runCalls ⟨ofRows m.primaryKey.name rows true reportsCount, journal⟩ hstart
    largest hc
  exact hrun.follows

/-- A record is created and updated by its generated key, and an unknown key is updated in vain. -/
theorem calls_follow_ledger_of_user :
    let m : Model := ⟨"User", .key "id" .int, [], []⟩
    let rows := [[(.text "id", .int 1), (.text "name", .text "Ann")]]
    let calls := [⟨.create, [(.text "name", .text "Bob")]⟩,
      ⟨.update, [(.text "id", .int 2), (.text "name", .text "Eve")]⟩,
      ⟨.update, [(.text "id", .int 7), (.text "name", .text "Kay")]⟩]
    let (answered, last) := runCalls m .null calls ⟨ofRows "id" rows true true, {}⟩
    WellKeyed "id" rows ∧
      (∀ c ∈ calls, c.op = .create → Entries.get? c.args (.text "id") = none) ∧
      answered.map (·.2.isOk) = [true, true, false] ∧ last.store.rows.length = 2 ∧
      Follows m .null rows answered last := by
  intro m rows calls
  have hw : WellKeyed "id" rows := ⟨by decide +kernel, by decide +kernel⟩
  have hc : ∀ c ∈ calls, c.op = .create → Entries.get? c.args (.text "id") = none := by
    intro c hm hop
    rcases List.mem_cons.mp hm with rfl | hm
    · exact Option.isNone_iff_eq_none.mp (by decide +kernel)
    · have hups : ∀ c ∈ calls.tail, c.op = .update := by decide
      rw [hups c hm] at hop
      cases hop
  have hfollows := calls_follow_ledger (m := m) hw true {} .null hc
  exact ⟨hw, hc, by decide +kernel, by decide +kernel, hfollows⟩

/-- Two keys that are not read for what they are. One is stored, under a name that resolvers have for
themselves; the other is not, and is too long to be shown. -/
theorem reading_refused_for_name_or_length :
    let note : Entity := ⟨"Note", [("info", { type := .text "INTEGER", primaryKey := true })], .null⟩
    let rows := [[(.text "info", .int 1)]]
    let notes : Session MemoryStore := ⟨ofRows "info" rows true true, {}⟩
    let users : Session MemoryStore := ⟨ofRows "id" [] true true, {}⟩
    let long : Value := .int (Nat.pow 10 Numeral.digitLimit : Nat)
    (∃ m, Model.ofEntity note = .ok m ∧ m.primaryKey.name = "info" ∧ WellKeyed "info" rows ∧
      recordAt "info" (.int 1) (ledgerOf "info" rows []) = some [(.text "info", .int 1)] ∧
      (Call.mk .read [(.text "info", .int 1)]).run m .null notes =
        (mishap .badType "resolver() got multiple values for an argument", notes)) ∧
    ∃ m, Model.ofEntity ⟨"User", [], .null⟩ = .ok m ∧ m.primaryKey.name = "id" ∧
      Unstored "id" long (ledgerOf "id" [] []) ∧
      (Call.mk .read [(.text "id", long)]).run m .null users = (.error Value.overlong, users) := by
  intro note rows notes users long
  refine ⟨⟨⟨"Note", .key "info" .int, [.key "info" .int], []⟩, by with_unfolding_all rfl, rfl,
    ⟨by decide +kernel, by decide +kernel⟩, by with_unfolding_all rfl, by with_unfolding_all rfl⟩, ?_⟩
  let user : Model := ⟨"User", .key "id" .int, [.key "id" .int], []⟩
  have hkeyed : WellKeyed "id" [] := ⟨by decide +kernel, by decide +kernel⟩
  have hargs : Resolver.Callable [(.text "id", long)] := by
    constructor
    · simp [Resolver.reservedNames]
    · simp [Entries.Distinct]
  have hunstored : Unstored "id" long (ledgerOf "id" [] []) := fun _ hm => absurd hm List.not_mem_nil
  have hlong : long.Outsized := .int (Nat.le_of_eq (Int.natAbs_natCast _).symm)
  have hfield : Value.field [(.text "id", long)] user.primaryKey.name = long := by
    simp [user, Field.key, Value.field, Value.lookup, Entries.get?]
  have hfollows : Follows user .null [] [] users := Tracks.follows (Tracks.ofRows hkeyed true)
  have hrefused := hfollows.outsized _ hargs
  rw [hfield] at hrefused
  exact ⟨user, by with_unfolding_all rfl, rfl, hunstored, hrefused hunstored hlong⟩

end EntityApi.MemoryStore
