import EntityApi.Proofs.Store.Ordering
import EntityApi.Proofs.Store.Served

/-! # Going through a listing page by page

A listing is asked for in pages, each by its offset and limit. What a page shows is a
part of one list, the rows that meet the filter in the order that is asked for
(`run_page`), and its count is the length of that list. So the pages at the offsets
0, s, 2s and so on, up to the first that is empty, are that list in parts
(`walk_of_pages`), and nothing of it is lost or shown twice. -/
namespace EntityApi

namespace MemoryStore

/-! ## The rows that a filter leaves -/

/-- All conditions hold on the row. -/
def meets (conditions : List Condition) (row : Row) : Bool :=
  conditions.all fun c => (c.holds row).toOption == some true

theorem allHold_eq_meets {conditions : List Condition} {row : Row} {answer : Bool}
    (h : Condition.allHold conditions row = .ok answer) : answer = meets conditions row := by
  induction conditions with
  | nil =>
    cases h
    rfl
  | cons c conditions ih =>
    obtain ⟨first, hfirst, h⟩ := Result.bind_eq_ok.mp h
    unfold meets
    rw [List.all_cons, hfirst]
    cases first with
    | true => exact ih h
    | false =>
      cases h
      rfl

/-- A filter that can be decided on every row leaves the rows that meet it. -/
theorem matching_eq_ok {conditions : List Condition} {rows : List Row}
    (h : ∀ row ∈ rows, ∃ answer, Condition.allHold conditions row = .ok answer) :
    matching conditions rows = .ok (rows.filter (meets conditions)) := by
  induction rows with
  | nil => rfl
  | cons row rows ih =>
    obtain ⟨⟨answer, hanswer⟩, hrows⟩ := List.forall_mem_cons.mp h
    have hmeets := allHold_eq_meets hanswer
    unfold matching
    rw [hanswer, Result.ok_bind, ih hrows]
    cases answer with
    | true => rw [List.filter_cons_of_pos hmeets.symm]; rfl
    | false => rw [List.filter_cons_of_neg (by simp [← hmeets])]; rfl

/-! ## Ordering clauses -/

/-- The ordering clause, if there is one, names a direction and a column whose values in the rows can
be compared. -/
def Sortable (column direction : Value) (rows : List Row) : Prop :=
  column.truthy = true → direction.truthy = true → column.isKey = true ∧
    (∃ d, Sql.Direction.ofValue direction = .ok d) ∧
      Comparable (rows.map (Value.lookup · column))

/-- The rows are arranged as the ordering clause has it; without one they stay as they are. -/
def Arranged (column direction : Value) (rows sorted : List Row) : Prop :=
  if column.truthy = true ∧ direction.truthy = true then
    ∃ d, Sql.Direction.ofValue direction = .ok d ∧ Arranges column d rows sorted
  else sorted = rows

theorem sortAll_eq_ok {column direction : Value} {rows : List Row}
    (h : Sortable column direction rows) : ∃ sorted,
      sortAll (Filter.compileOrder column direction) rows = .ok sorted ∧
        Arranged column direction rows sorted := by
  unfold Filter.compileOrder Arranged
  by_cases hclause : column.truthy = true ∧ direction.truthy = true
  · obtain ⟨hcolumn, hdirection⟩ := hclause
    obtain ⟨hkey, ⟨d, hd⟩, hcomparable⟩ := h hcolumn hdirection
    refine ⟨sortRows column d rows, ?_, ?_⟩
    · rw [if_pos (by simp [hcolumn, hdirection])]
      change (Sql.Direction.ofValue direction >>= fun d => sortBy column d rows) = _
      rw [hd, Result.ok_bind, sortBy_eq_ok hkey hcomparable]
    · rw [if_pos ⟨hcolumn, hdirection⟩]
      exact ⟨d, hd, arranges_sortRows column d rows⟩
  · refine ⟨rows, ?_, by rw [if_neg hclause]⟩
    rw [if_neg (by simpa using hclause)]
    rfl

theorem Arranged.perm {column direction : Value} {rows sorted : List Row}
    (h : Arranged column direction rows sorted) : sorted.Perm rows := by
  unfold Arranged at h
  split at h
  · obtain ⟨_, _, h⟩ := h
    exact h.perm
  · exact h ▸ .refl _

/-! ## Slices -/

theorem clampIndex_nat (length n : Nat) : clampIndex length (n : Int) = min n length := by
  have hpositive : ¬ (n : Int) < 0 := by omega
  simp [clampIndex, hpositive]

theorem slice_eq {α : Type} (offset size : Nat) (l : List α) :
    slice (offset : Int) (offset + size : Int) l = (l.drop offset).take size := by
  have hsum : (offset + size : Int) = ((offset + size : Nat) : Int) := by simp
  unfold slice
  rw [hsum, clampIndex_nat, clampIndex_nat, ← List.take_eq_take_min]
  dsimp only
  by_cases hinside : offset ≤ l.length
  · rw [Nat.min_eq_left hinside, List.drop_take, Nat.add_sub_cancel_left]
  · have hbeyond : l.length ≤ offset := Nat.le_of_not_le hinside
    rw [Nat.min_eq_right hbeyond, List.drop_take, List.drop_of_length_le (Nat.le_refl _),
      List.drop_of_length_le hbeyond, List.take_nil, List.take_nil]

theorem list_of_sorted {s : MemoryStore} {conditions : List Condition} {order : List Value}
    {hits sorted : List Row} (hhits : matching conditions s.rows = .ok hits)
    (hsorted : sortAll order hits = .ok sorted) (offset size : Nat) :
    s.list conditions order (.int offset) (.int size) =
      .ok ((hits.length : Nat), (sorted.drop offset).take size) := by
  unfold list page
  rw [hhits, Result.ok_bind, hsorted, Result.ok_bind]
  simp only [Value.index?, slice_eq]
  rfl

end MemoryStore

namespace Resolver

open MemoryStore (access)

/-! ## One request -/

/-- What a client asks for in a listing, apart from the offset. -/
structure Query where
  filters : Value
  column : Value
  direction : Value
  limit : Nat

/-- The arguments of a request for a listing from an offset on. What is left out is null, or zero. -/
structure Query.Asks (q : Query) (offset : Nat) (args : Row) : Prop where
  names : checkListingNames args = .ok ()
  offset : (Entries.get? args (.text "offset")).getD (.int 0) = .int offset
  limit : (Entries.get? args (.text "limit")).getD (.int 0) = .int q.limit
  filters : Value.field args "filter_options" = q.filters
  column : Value.field args "order_column" = q.column
  direction : Value.field args "order_method" = q.direction

/-- The arguments of a request that leaves nothing out. -/
def Query.args (q : Query) (offset : Nat) : Row :=
  [(.text "offset", .int offset), (.text "limit", .int q.limit), (.text "filter_options", q.filters),
    (.text "order_column", q.column), (.text "order_method", q.direction)]

theorem Query.asks_args (q : Query) (offset : Nat) : q.Asks offset (q.args offset) := by
  have hnames : checkListingNames (q.args offset) = .ok () := by
    simp [checkListingNames, checkNames, args, listingNames, isReserved, reservedNames, Value.isText]
  refine ⟨hnames, ?_, ?_, ?_, ?_, ?_⟩ <;>
    simp [args, Value.field, Value.lookup, Entries.get?]

/-- The largest limit that is allowed, as a setting. -/
def setting : Option Nat → Value
  | none => .null
  | some top => .int top

/-- The limit in force. -/
def pageSize (largest : Option Nat) (limit : Nat) : Nat :=
  match largest with
  | none => limit
  | some top => min limit top

theorem pageSize_le {largest : Option Nat} {limit top : Nat} (h : top ∈ largest) :
    pageSize largest limit ≤ top := by
  cases h
  exact Nat.min_le_right limit top

theorem pageSize_pos {largest : Option Nat} {limit : Nat} (hl : 1 ≤ limit)
    (h : ∀ top ∈ largest, 1 ≤ top) : 1 ≤ pageSize largest limit := by
  cases largest with
  | none => exact hl
  | some top => exact Nat.le_min.mpr ⟨hl, h top rfl⟩

theorem clamp_setting (largest : Option Nat) (limit : Nat) :
    clamp (setting largest) (.int limit) = .ok (.int (pageSize largest limit)) := by
  cases largest with
  | none => rfl
  | some top =>
    unfold clamp
    simp only [setting, Value.isNull, Bool.false_eq_true, ↓reduceIte, before_int, pageSize,
      Result.ok_bind, decide_eq_true_iff]
    split
    · rw [Nat.min_eq_right (by omega)]
      rfl
    · rw [Nat.min_eq_left (by omega)]
      rfl

/-- What the arguments ask for, with the limit in force. -/
def Query.listing (q : Query) (conditions : List Condition) (largest : Option Nat) (offset : Nat) :
    Listing where
  conditions := conditions
  order := Filter.compileOrder q.column q.direction
  offset := .int offset
  limit := .int (pageSize largest q.limit)

theorem plan_of_asks {q : Query} {offset : Nat} {args : Row} {conditions : List Condition}
    (h : q.Asks offset args) (hcompile : Filter.compile q.filters = .ok conditions)
    (largest : Option Nat) :
    plan (setting largest) args = .ok (q.listing conditions largest offset) := by
  have hno : ∀ n : Nat, isNegative (.int n) = .ok false := by
    intro n
    rw [isNegative_int]
    simp
  have hfilters : (Entries.get? args (.text "filter_options")).getD .null = q.filters := h.filters
  have hcolumn : (Entries.get? args (.text "order_column")).getD .null = q.column := h.column
  have hdirection : (Entries.get? args (.text "order_method")).getD .null = q.direction :=
    h.direction
  unfold plan
  simp only [h.names, h.offset, h.limit, hno, clamp_setting, hfilters, hcompile, hcolumn, hdirection]
  rfl

/-- A page with a count. -/
def answer (count : Nat) (page : List Row) : Value :=
  .map [(.text "count", .int count), (.text "rows", .list (page.map .map))]

variable {m : Model} {largest : Option Nat} {q : Query} {conditions : List Condition}
  {hits sorted : List Row} {session : Session MemoryStore}

/-- A request is answered with the count of all hits and the part of them that it asks for. -/
theorem run_page {offset : Nat} {args : Row} {journal : Log.Journal}
    (hasks : q.Asks offset args) (hcompile : Filter.compile q.filters = .ok conditions)
    (hhits : MemoryStore.matching conditions session.store.rows = .ok hits)
    (hsorted : MemoryStore.sortAll (Filter.compileOrder q.column q.direction) hits = .ok sorted)
    (hreport : session.journal.record ((q.listing conditions largest offset).event m) =
      .ok journal) :
    (readMultiple access m (setting largest) args).run session =
      (.ok (answer hits.length ((sorted.drop offset).take (pageSize largest q.limit))),
        { session with journal := journal }) := by
  rw [run_readMultiple_of_plan (plan_of_asks hasks hcompile largest),
    Step.run_bind_of_ok (Step.run_log_of_ok hreport), Step.run_bind, Step.run_look]
  dsimp only [Query.listing]
  rw [MemoryStore.list_of_sorted hhits hsorted]
  rfl

/-! ## All requests -/

/-- The requests at an offset and then, as long as pages have rows, each further on by a step. A page
is given with its count. -/
inductive Walk (m : Model) (largest : Value) (args : Nat → Row) (step : Nat) :
    Nat → Session MemoryStore → List (Nat × List Row) → Session MemoryStore → Prop
  | last {offset count : Nat} {session later : Session MemoryStore} :
    (readMultiple access m largest (args offset)).run session = (.ok (answer count []), later) →
    Walk m largest args step offset session [(count, [])] later
  | more {offset count : Nat} {page : List Row} {pages : List (Nat × List Row)}
    {session next later : Session MemoryStore} :
    (readMultiple access m largest (args offset)).run session = (.ok (answer count page), next) →
    page ≠ [] → Walk m largest args step (offset + step) next pages later →
    Walk m largest args step offset session ((count, page) :: pages) later

/-- The pages from an offset on are the rest of the rows in parts. -/
theorem walk_of_pages {args : Nat → Row} (hasks : ∀ offset, q.Asks offset (args offset))
    (hcompile : Filter.compile q.filters = .ok conditions)
    (hhits : MemoryStore.matching conditions session.store.rows = .ok hits)
    (hsorted : MemoryStore.sortAll (Filter.compileOrder q.column q.direction) hits = .ok sorted)
    (hsize : 1 ≤ pageSize largest q.limit)
    (hreport : ∀ offset < sorted.length + pageSize largest q.limit,
      (session.journal.record ((q.listing conditions largest offset).event m)).isOk = true)
    {offset : Nat} (hoffset : offset < sorted.length + pageSize largest q.limit) :
    ∃ pages later,
      Walk m (setting largest) args (pageSize largest q.limit) offset session pages later ∧
        later.store = session.store ∧ pages.flatMap Prod.snd = sorted.drop offset ∧
          ∀ page ∈ pages, page.1 = hits.length := by
  -- what is left of the rows gets shorter from page to page
  induction hleft : sorted.length - offset using Nat.strong_induction_on
    generalizing offset session with
  | h left ih =>
    obtain ⟨journal, hjournal⟩ := Result.exists_of_isOk (hreport offset hoffset)
    have hrun := run_page (hasks offset) hcompile hhits hsorted hjournal
    by_cases hend : sorted.length ≤ offset
    · have hempty : sorted.drop offset = [] := List.drop_of_length_le hend
      rw [hempty, List.take_nil] at hrun
      exact ⟨_, _, .last hrun, rfl, hempty.symm, List.forall_mem_singleton.mpr rfl⟩
    · have hpage : (sorted.drop offset).take (pageSize largest q.limit) ≠ [] := by
        intro hnil
        have := congrArg List.length hnil
        simp only [List.length_take, List.length_drop, List.length_nil] at this
        omega
      obtain ⟨pages, later, hwalk, hstore, hrows, hcounts⟩ :=
        @ih (sorted.length - (offset + pageSize largest q.limit)) (by omega)
          { session with journal := journal } hhits
          (fun other hother =>
            (Log.Journal.record_isOk_of_record hjournal _).trans (hreport other hother))
          (offset + pageSize largest q.limit) (by omega) rfl
      refine ⟨_, later, .more hrun hpage hwalk, hstore, ?_, List.forall_mem_cons.mpr ⟨rfl, hcounts⟩⟩
      rw [List.flatMap_cons, hrows, ← List.drop_drop, List.take_append_drop]

/-- The request at an offset can be reported in the journal. -/
def Reports (journal : Log.Journal) (m : Model) (q : Query) (conditions : List Condition)
    (largest : Option Nat) (offset : Nat) : Prop :=
  (journal.record ((q.listing conditions largest offset).event m)).isOk = true

/-- Where debugging is not journalled, there is nothing to report. -/
theorem reports_of_quiet {journal : Log.Journal} (h : journal.admits Log.debug = false) (m : Model)
    (q : Query) (conditions : List Condition) (largest : Option Nat) (offset : Nat) :
    Reports journal m q conditions largest offset := by
  unfold Reports Log.Journal.record
  simp only [Listing.event, h]
  rfl

/-- **Pages lose and repeat nothing.** Take a memory store, a filter that can be decided on each of its
rows, and an ordering clause, if any, under which the rows that meet the filter can be compared. There
is one arrangement of these rows such that, whatever the largest limit allowed and the limit that is
asked for, a request answers with their number and the part of the arrangement from its offset on, as
long as the limit in force lets it; and with limits of one or more, the pages at the offsets that
follow each other at that distance are the whole arrangement. A request need only be one that the
journal can report, if debugging is on. -/
theorem pages_make_up_listing (s : MemoryStore) {filters column direction : Value}
    {conditions : List Condition} (hcompile : Filter.compile filters = .ok conditions)
    (hdecided : ∀ row ∈ s.rows, ∃ answer, Condition.allHold conditions row = .ok answer)
    (hsortable : MemoryStore.Sortable column direction
      (s.rows.filter (MemoryStore.meets conditions))) :
    let hits := s.rows.filter (MemoryStore.meets conditions)
    ∃ sorted, MemoryStore.Arranged column direction hits sorted ∧
      ∀ (m : Model) (largest : Option Nat) (limit : Nat) (journal : Log.Journal),
        let q : Query := ⟨filters, column, direction, limit⟩
        let size := pageSize largest limit
        (∀ (offset : Nat) (args : Row), q.Asks offset args →
          Reports journal m q conditions largest offset → ∃ page later,
            (readMultiple access m (setting largest) args).run ⟨s, journal⟩ =
              (.ok (answer hits.length page), ⟨s, later⟩) ∧
            page = (sorted.drop offset).take size ∧
            page.length = min size (hits.length - offset) ∧
            ∀ top ∈ largest, page.length ≤ top) ∧
        (1 ≤ limit → (∀ top ∈ largest, 1 ≤ top) → ∀ args : Nat → Row,
          (∀ offset, q.Asks offset (args offset)) →
          (∀ offset < hits.length + size, Reports journal m q conditions largest offset) →
          ∃ pages later, Walk m (setting largest) args size 0 ⟨s, journal⟩ pages ⟨s, later⟩ ∧
            pages.flatMap Prod.snd = sorted ∧ ∀ page ∈ pages, page.1 = hits.length) := by
  intro hits
  have hhits := MemoryStore.matching_eq_ok hdecided
  obtain ⟨sorted, hsorted, harranged⟩ := MemoryStore.sortAll_eq_ok hsortable
  have hcount : sorted.length = hits.length := harranged.perm.length_eq
  refine ⟨sorted, harranged, fun m largest limit journal => ⟨?_, ?_⟩⟩
  · intro offset args hasks hreport
    obtain ⟨later, hlater⟩ := Result.exists_of_isOk hreport
    have hlength : ((sorted.drop offset).take (pageSize largest limit)).length =
        min (pageSize largest limit) (hits.length - offset) := by
      rw [List.length_take, List.length_drop, hcount]
    refine ⟨_, later, ?_, rfl, hlength, fun top htop => ?_⟩
    · exact run_page hasks hcompile hhits hsorted hlater
    · rw [hlength]
      exact Nat.le_trans (Nat.min_le_left _ _) (pageSize_le htop)
  · intro hlimit hlargest args hasks hreport
    rw [← hcount] at hreport
    have hsize : 1 ≤ pageSize largest limit := pageSize_pos hlimit hlargest
    have hstart : 0 < sorted.length + pageSize largest limit := by omega
    obtain ⟨pages, ⟨store, later⟩, hwalk, hstore, hrows, hcounts⟩ :=
      @walk_of_pages m largest ⟨filters, column, direction, limit⟩ conditions hits sorted
        ⟨s, journal⟩ args hasks hcompile hhits hsorted hsize hreport 0 hstart
    obtain rfl : store = s := hstore
    exact ⟨pages, later, hwalk, hrows, hcounts⟩

/-- The users of one team by age, the ageless first and then the oldest, two on a page. -/
theorem pages_make_up_listing_of_users :
    let user (id : Int) (team : String) (age : Value) : Row :=
      [(.text "id", .int id), (.text "team", .text team), (.text "age", age)]
    let rows := [user 1 "red" (.int 25), user 2 "blue" (.int 41), user 3 "red" (.int 30),
      user 4 "red" .null, user 5 "red" (.int 30)]
    let s := MemoryStore.ofRows "id" rows true true
    let m : Model := ⟨"User", .key "id" .int, [], []⟩
    let q : Query := ⟨.list [.map [(.text "value_type", .text "Raw"),
      (.text "column_name", .text "team"), (.text "value", .text "red")]], .text "age", .text "desc", 10⟩
    ∃ sorted pages later, MemoryStore.Arranges (.text "age") .descending [user 1 "red" (.int 25),
        user 3 "red" (.int 30), user 4 "red" .null, user 5 "red" (.int 30)] sorted ∧
      Walk m (setting (some 2)) q.args 2 0 ⟨s, {}⟩ pages ⟨s, later⟩ ∧
      pages.flatMap Prod.snd = sorted ∧ ∀ page ∈ pages, page.1 = 4 := by
  intro user rows s m q
  let conditions : List Condition := [⟨.text "team", .equal, .text "red"⟩]
  have hcompile : Filter.compile q.filters = .ok conditions := by with_unfolding_all rfl
  have hdecided : ∀ row ∈ s.rows, ∃ answer, Condition.allHold conditions row = .ok answer := by
    have hok : ∀ row ∈ s.rows, (Condition.allHold conditions row).isOk = true := by
      simp only [s, rows, user, conditions]
      decide +kernel
    exact fun row hrow => Result.exists_of_isOk (hok row hrow)
  have hhits : s.rows.filter (MemoryStore.meets conditions) = [user 1 "red" (.int 25),
      user 3 "red" (.int 30), user 4 "red" .null, user 5 "red" (.int 30)] := by
    with_unfolding_all rfl
  have hdirection : Sql.Direction.ofValue q.direction = .ok .descending := by
    with_unfolding_all rfl
  have hsortable : MemoryStore.Sortable q.column q.direction
      (s.rows.filter (MemoryStore.meets conditions)) := by
    refine fun _ _ => ⟨rfl, ⟨_, hdirection⟩, (comparable_numbers ?_).1⟩
    rw [hhits]
    simp [user, q, Value.lookup, Entries.get?, Value.isNull, Value.index?]
  obtain ⟨sorted, harranged, hpages⟩ := pages_make_up_listing s hcompile hdecided hsortable
  rw [hhits] at harranged hpages
  unfold MemoryStore.Arranged at harranged
  rw [if_pos ⟨rfl, rfl⟩] at harranged
  obtain ⟨d, hd, harranged⟩ := harranged
  obtain rfl := Except.ok.inj (hdirection.symm.trans hd)
  obtain ⟨pages, later, hwalk, hrows, hcounts⟩ := (hpages m (some 2) 10 {}).2 (by decide) (by simp)
    q.args q.asks_args (fun offset _ => reports_of_quiet (by decide) m q conditions (some 2) offset)
  exact ⟨sorted, pages, later, harranged, hwalk, hrows, hcounts⟩

/-- A column that is a list is none that a row could have: the filter compiles, but the listing is
refused. So is, while debugging is journalled, one with a limit that is too long to be written. -/
theorem undecided_filter_refused :
    let s := MemoryStore.ofRows "id" [[(.text "id", .int 1)]] true true
    let m : Model := ⟨"E", .key "id" .int, [], []⟩
    let filters : Value := .list [.map [(.text "value_type", .text "Raw"),
      (.text "column_name", .list [.text "x"]), (.text "value", .text "5")]]
    (Filter.compile filters).isOk = true ∧
      (((readMultiple access m (setting none) (Query.args ⟨filters, .null, .null, 10⟩ 0)).run
        ⟨s, {}⟩).1.isOk = false) ∧
      (((readMultiple access m (setting none) (Query.args ⟨.null, .null, .null, 10 ^ 4300⟩ 0)).run
        ⟨s, { threshold := .int Log.debug }⟩).1.isOk = false) := by
  decide +kernel

end Resolver

end EntityApi
