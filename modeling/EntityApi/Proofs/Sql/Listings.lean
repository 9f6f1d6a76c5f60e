import EntityApi.Proofs.Filter.Grammar
import EntityApi.Proofs.Sql.Commits
import EntityApi.Proofs.Sql.Refusals
import EntityApi.Proofs.Store.Paging

/-! # Listings of a table are checked before the database is asked

What can be wrong with a listing is found in three places: the bounds and the filters
where it is planned, the columns and the direction where its statements are made. All
of that comes before the link is touched (`run_of_unsound`). What is left over has two
statements, made apart from one another out of the same conditions
(`Search.exists_statements`), and both are executed on one visit if the first is
answered with a number (`Store.run_list`). -/
namespace EntityApi

/-! ## What filters compile to -/

namespace Filter

variable {column type : Value} {v : String} {c : Condition} {spec : List (Value × Value)}

theorem Means.column_eq (h : Means column type v c) : c.column = column := by
  cases h <;> rfl

theorem Means.known (h : Means column type v c) : c.comparison.Known := by
  cases h <;> exact nofun

/-- There are values for the placeholders, and they can be reported. -/
theorem Means.operands (h : Means column type v c) : ∃ values, Sql.Clause.operands c = .ok values ∧
    ∀ value ∈ values, ∃ json, value.toJson? = .ok json := by
  cases h with
  | number hn =>
    exact ⟨_, rfl, List.forall_mem_singleton.mpr ⟨_, Value.toJson?_int_of_lt hn.natAbs_lt⟩⟩
  | range =>
    exact ⟨_, rfl, List.forall_mem_cons.mpr ⟨⟨_, rfl⟩, List.forall_mem_singleton.mpr ⟨_, rfl⟩⟩⟩
  | _ => exact ⟨_, rfl, List.forall_mem_singleton.mpr ⟨_, rfl⟩⟩

/-- The comparison and the operand can be reported. -/
theorem Means.exists_toJson? (h : Means column type v c) :
    (∃ json, c.comparison.toValue.toJson? = .ok json) ∧ ∃ json, c.operand.toJson? = .ok json := by
  cases h with
  | number hn => exact ⟨⟨_, rfl⟩, _, Value.toJson?_int_of_lt hn.natAbs_lt⟩
  | _ => exact ⟨⟨_, rfl⟩, _, rfl⟩

/-- A descriptor names one column at most. -/
theorem Names.unique {a b : String} (ha : Names spec a) (hb : Names spec b) : a = b :=
  Value.text.inj ((columnOf_of_names ha).symm.trans (columnOf_of_names hb))

/-- What is asked for is a condition on the column that is named. -/
theorem Asks.column_eq {name : String} (h : Asks spec c) (hname : Names spec name) :
    c.column = .text name := by
  obtain ⟨_, hcolumn, hmeans⟩ := h
  rw [hname.unique hcolumn, hmeans.column_eq]

theorem Asks.exists_means (h : Asks spec c) :
    ∃ name type v, Names spec name ∧ Means (.text name) type v c := by
  obtain ⟨_, hname, hmeans⟩ := h
  exact ⟨_, _, _, hname, hmeans⟩

theorem exists_means_of_mem {specs : List (List (Value × Value))} {conditions : List Condition}
    (h : List.Forall₂ Asks specs conditions) (hc : c ∈ conditions) :
    ∃ name type v, Means (.text name) type v c := by
  obtain ⟨spec, _, hasks⟩ := Result.exists_of_mem_right h hc
  obtain ⟨name, type, v, _, hmeans⟩ := hasks.exists_means
  exact ⟨name, type, v, hmeans⟩

/-- What asks for a condition is not faulty. -/
theorem Asks.not_faulty {fault : FilterFault} (h : Asks spec c) (htext : Textual spec) :
    ¬Faulty spec fault := by
  intro hfault
  have hone := compileOne_of_asks htext h
  rw [compileOne_of_faulty htext hfault] at hone
  cases hone

/-- A condition that is asked for can be reported. -/
theorem Asks.exists_toJson? (h : Asks spec c) :
    ∃ json, (Value.list [c.column, c.comparison.toValue, c.operand]).toJson? = .ok json := by
  obtain ⟨name, _, _, _, hmeans⟩ := h.exists_means
  obtain ⟨hcomparison, hoperand⟩ := hmeans.exists_toJson?
  have hcolumn : ∃ json, c.column.toJson? = .ok json := by
    rw [hmeans.column_eq]
    exact ⟨_, rfl⟩
  refine Value.exists_toJson?_list (List.forall_mem_cons.mpr ⟨hcolumn, ?_⟩)
  exact List.forall_mem_cons.mpr ⟨hcomparison, List.forall_mem_singleton.mpr hoperand⟩

end Filter

/-! ## The statements of a listing -/

namespace Sql

variable {t : Table} {specs : List (List (Value × Value))} {conditions : List Condition}

/-- Conditions that are asked for have clauses, and their values can be reported. -/
theorem exists_clauses (h : List.Forall₂ Filter.Asks specs conditions) :
    ∃ clauses, clausesFrom 0 conditions = .ok clauses ∧
      ∀ param ∈ (conjunction clauses).params, ∃ json, param.2.toJson? = .ok json := by
  have hmeans : ∀ c ∈ conditions, ∃ name type v, Filter.Means (.text name) type v c :=
    fun _ => Filter.exists_means_of_mem h
  obtain ⟨clauses, hclauses⟩ := clausesFrom_isOk 0
    (fun c hc => let ⟨_, _, _, hm⟩ := hmeans c hc; hm.known)
    (fun c hc => let ⟨_, _, _, hm⟩ := hmeans c hc; let ⟨values, hv, _⟩ := hm.operands; ⟨values, hv⟩)
    (fun c hc => let ⟨name, _, _, hm⟩ := hmeans c hc; ⟨name, by rw [hm.column_eq]; rfl⟩)
  refine ⟨clauses, hclauses, fun param hparam => ?_⟩
  obtain ⟨clause, hclause, hparam⟩ := List.mem_flatMap.mp hparam
  obtain ⟨c, hc, i, hi⟩ := Result.exists_of_mem_right (clauses_of_clausesFrom hclauses) hclause
  obtain ⟨_, _, values, _, hvalues, rfl⟩ := Clause.ofCondition_eq_ok.mp hi
  obtain ⟨name, type, v, hm⟩ := hmeans c hc
  obtain ⟨operands, hoperands, hjson⟩ := hm.operands
  obtain rfl : operands = values := Except.ok.inj (hoperands.symm.trans hvalues)
  exact hjson param.2 (List.of_mem_zip hparam).2

/-- A statement with parameters that can be reported can be reported. -/
theorem exists_record_sent {st : Statement}
    (h : ∀ param ∈ st.params, ∃ json, param.2.toJson? = .ok json) (j : Log.Journal) :
    ∃ later, j.record (LinkStep.sent st) = .ok later := by
  refine Log.Journal.exists_record ?_ j
  have hparams := Value.exists_toJson?_map h
  have hpos : ∀ k, (0 : Int).natAbs < Nat.pow 10 k := fun k => Nat.pow_pos (by decide)
  have hms : ∃ json, (Value.int 0).toJson? = .ok json := ⟨_, Value.toJson?_int_of_lt (hpos _)⟩
  simp only [LinkStep.sent, List.forall_mem_cons]
  exact ⟨⟨_, rfl⟩, hparams, hms, nofun⟩

/-! ## Listing on one connection -/

namespace Link

/-- The driver connects, carries out the coming two statements, and answers the first with a
number. -/
structure Counts (l : Link) (total : Int) : Prop where
  connected : l.connects.headD none = none
  counted : (l.outcome 0).error = none
  selected : (l.outcome 1).error = none
  total : Store.countOf (l.outcome 0).rows.head? = .ok total

end Link

/-- The calls of a visit that counts and then selects. -/
def counted (counting selecting : Statement) : List Call :=
  [.execute counting.sql counting.params, .fetchOne, .execute selecting.sql selecting.params,
    .fetchAll]

namespace Store

variable {s : Store} {order : List Value} {limit offset : Value}

/-- A statement that cannot be made is the end of a listing, with no call to the driver. -/
theorem run_list_refused {keyColumn : Value} (ht : Shows s.table.name)
    (hw : Command.WellFormed keyColumn (.select conditions order limit offset))
    (hs : ¬Command.Sound s.table keyColumn (.select conditions order limit offset))
    (session : Session Link) : ∃ fault, (s.list conditions order offset limit).run session =
      (.error (.invalidArgument fault), session) := by
  have hcount : Decides (s.table.count conditions) := by
    obtain ⟨name, hname⟩ := id ht
    unfold Table.count
    rw [hname, Result.ok_bind]
    refine (whereClause_decides ht hw.comparison hw.operands fun c hc => ?_).bind fun _ _ => .ok _
    exact hw.columns _ (List.mem_append_left _ (List.mem_map_of_mem hc))
  unfold list
  rcases hcount with ⟨counting, hcount⟩ | ⟨fault, hcount⟩
  · obtain ⟨fault, hselect⟩ := select_refuses ht hw hs
    refine ⟨fault, ?_⟩
    rw [hcount, Step.run_bind_of_ok (Step.run_ofResult _), hselect,
      Step.run_bind_of_error (Step.run_ofResult _)]
  · refine ⟨fault, ?_⟩
    rw [hcount, Step.run_bind_of_error (Step.run_ofResult _)]

/-- Both statements are executed on one connection, the one that counts before the other. -/
theorem run_list {counting selecting : Statement} {l : Link} {total : Int} (h : l.Counts total)
    (hcount : s.table.count conditions = .ok counting)
    (hselect : s.table.select conditions order limit offset = .ok selecting)
    (hcounting : ∀ j : Log.Journal, ∃ later, j.record (LinkStep.sent counting) = .ok later)
    (hselecting : ∀ j : Log.Journal, ∃ later, j.record (LinkStep.sent selecting) = .ok later)
    (j : Log.Journal) : ∃ later,
      (s.list conditions order offset limit).run ⟨l, j⟩ =
        ((l.outcome 1).records.map fun records => (total, records), later) ∧
      Ran l (Visit.done (counted counting selecting) false).calls later.store := by
  obtain ⟨j₁, hj₁⟩ := hcounting j
  obtain ⟨j₂, hj₂⟩ := hselecting j₁
  let asked := (l.opened.executed counting).fetched
  let last := (asked.executed selecting).drained
  have hfirst : (LinkStep.execute counting).run ⟨l.opened, j⟩ =
      (.ok (), ⟨l.opened.executed counting, j₁⟩) :=
    execute_eq_ok_iff.mpr ⟨h.counted, j₁, hj₁, rfl⟩
  have htotal : (Step.ofResult (countOf (l.outcome 0).rows.head?) : LinkStep Int).run ⟨asked, j₁⟩ =
      (.ok total, ⟨asked, j₁⟩) := Prod.ext h.total rfl
  have hsecond : (LinkStep.execute selecting).run ⟨asked, j₁⟩ =
      (.ok (), ⟨asked.executed selecting, j₂⟩) :=
    execute_eq_ok_iff.mpr ⟨h.selected, j₂, hj₂, rfl⟩
  have hbody : Step.run (do
      LinkStep.execute counting
      let total ← Step.ofResult (countOf (← LinkStep.fetchOne))
      LinkStep.execute selecting
      return (total, ← LinkStep.fetchRecords)) ⟨l.opened, j⟩ =
        ((l.outcome 1).records.map fun records => (total, records), ⟨last, j₂⟩) := by
    refine (Step.run_bind_of_ok hfirst).trans ((Step.run_bind_of_ok run_fetchOne).trans ?_)
    refine (Step.run_bind_of_ok htotal).trans ((Step.run_bind_of_ok hsecond).trans ?_)
    have hrecords : LinkStep.fetchRecords.run ⟨asked.executed selecting, j₂⟩ =
        ((l.outcome 1).records, ⟨last, j₂⟩) := run_fetchRecords
    rw [Step.run_bind, hrecords]
    cases (l.outcome 1).records <;> rfl
  have hsteps : Ran l.opened (counted counting selecting) last :=
    (l.opened.ran_executed counting).trans ((l.opened.executed counting).ran_fetched.trans
      ((asked.ran_executed selecting).trans (asked.executed selecting).ran_drained))
  obtain ⟨hunit, hcalls⟩ := run_unit_of_body false h.connected hbody hsteps
  refine ⟨_, Eq.trans ?_ hunit, hcalls⟩
  unfold list
  rw [hcount, Step.run_bind_of_ok (Step.run_ofResult _), hselect,
    Step.run_bind_of_ok (Step.run_ofResult _)]

end Store

end Sql

/-! ## Searches -/

namespace Resolver

open Sql (Table Statement Link Shows)

/-- What a client asks for in a listing. The bounds may be any numbers, and the ordering is given in
part, in full, or not at all. -/
structure Search where
  offset : Int
  limit : Int
  filters : List (List (Value × Value))
  column : Option String
  direction : Option String

/-- A text, or null if it is left out. -/
def optional : Option String → Value
  | none => .null
  | some s => .text s

namespace Search

/-- The arguments ask for the search. What is left out is null, or zero. -/
structure Asks (q : Search) (args : Row) : Prop where
  names : checkListingNames args = .ok ()
  offset : (Entries.get? args (.text "offset")).getD (.int 0) = .int q.offset
  limit : (Entries.get? args (.text "limit")).getD (.int 0) = .int q.limit
  filters : Value.field args "filter_options" = .list (q.filters.map .map) ∨
    q.filters = [] ∧ Value.field args "filter_options" = .null
  column : Value.field args "order_column" = optional q.column
  direction : Value.field args "order_method" = optional q.direction

/-- The filters give texts, and the bounds are not too long to be written. -/
structure Legible (q : Search) : Prop where
  offset : q.offset.natAbs < Nat.pow 10 Numeral.digitLimit
  limit : q.limit.natAbs < Nat.pow 10 Numeral.digitLimit
  filters : ∀ spec ∈ q.filters, Filter.Textual spec

/-- The search is ordered: that takes a column and a direction, and an empty text is neither. -/
structure Orders (q : Search) (column direction : String) : Prop where
  column_eq : q.column = some column
  direction_eq : q.direction = some direction
  given : column ≠ "" ∧ direction ≠ ""

/-- What may be wrong with a search of a table. -/
inductive Unsound (t : Table) (q : Search) : Prop
  | offset (h : q.offset < 0)
  | limit (h : q.limit < 0)
  | malformed {spec : List (Value × Value)} {fault : FilterFault} (hspec : spec ∈ q.filters)
    (h : Filter.Faulty spec fault)
  | unknownFilter {spec : List (Value × Value)} {column : String} (hspec : spec ∈ q.filters)
    (h : Filter.Names spec column) (hcolumn : column ∉ t.columns)
  | unknownOrder {column direction : String} (h : q.Orders column direction)
    (hcolumn : column ∉ t.columns)
  | noDirection {column direction : String} (h : q.Orders column direction)
    (hd : ∀ d, Text.upper direction ≠ Sql.Direction.word d)

/-- How a statement is ordered for the search. -/
inductive Sorts (q : Search) : String → Prop
  | unordered (h : ∀ column direction, ¬q.Orders column direction) : Sorts q ""
  | ordered {column direction : String} {d : Sql.Direction} (h : q.Orders column direction)
    (hd : Text.upper direction = d.word) : Sorts q (" ORDER BY " ++ column ++ " " ++ d.word)

/-- The statements of a search, one that counts and one that selects. They have one condition, which
the filters ask for, and the same parameters. -/
inductive Statements (t : Table) (largest : Option Nat) (q : Search) : Statement → Statement → Prop
  | of {name sorting : String} {conditions : List Condition} {filter : Statement}
    (hname : t.name.text? = .ok name) (hasks : List.Forall₂ Filter.Asks q.filters conditions)
    (hfilter : Sql.whereOf conditions = .ok filter) (hsorts : q.Sorts sorting) :
    Statements t largest q
      ⟨"SELECT COUNT(*) FROM " ++ name ++ Table.suffix " WHERE " filter.sql, filter.params⟩
      ⟨"SELECT " ++ t.columnList ++ " FROM " ++ name ++ Table.suffix " WHERE " filter.sql ++
        sorting ++ (" LIMIT " ++ toString (pageSize largest q.limit.toNat)) ++
        (if 0 < q.offset then " OFFSET " ++ toString q.offset.toNat else ""), filter.params⟩

variable {q : Search} {args : Row} {t : Table} {largest : Option Nat}

/-! ### Planning -/

theorem Asks.compile (h : q.Asks args) : Filter.compile (Value.field args "filter_options") =
    Filter.compile (.list (q.filters.map .map)) := by
  rcases h.filters with h | ⟨hnil, h⟩
  · rw [h]
  · rw [h, hnil]
    rfl

/-- The clause that the ordering of a search becomes. -/
def order (q : Search) : List Value :=
  Filter.compileOrder (optional q.column) (optional q.direction)

/-- What is carried out for a search. -/
def listing (q : Search) (largest : Option Nat) (conditions : List Condition) : Listing where
  conditions := conditions
  order := q.order
  offset := .int q.offset
  limit := .int (pageSize largest q.limit.toNat)

theorem text?_of_lt {n : Int} (h : n.natAbs < Nat.pow 10 Numeral.digitLimit) :
    (Value.int n).text? = .ok (String.ofList (Numeral.write n)) := by
  rw [Value.text?_int, Value.intText?_of_lt h]

theorem Asks.plan_of_negative_offset (h : q.Asks args) (hl : q.Legible) (hneg : q.offset < 0)
    (largest : Value) : ∃ shown, plan largest args = .error (.invalidArgument (.offset shown)) := by
  refine ⟨String.ofList (Numeral.write q.offset), ?_⟩
  unfold plan
  simp only [h.names, h.offset, isNegative_int, hneg, text?_of_lt hl.offset]
  rfl

theorem Asks.plan_of_negative_limit (h : q.Asks args) (hl : q.Legible) (hoffset : ¬q.offset < 0)
    (hneg : q.limit < 0) (largest : Value) :
    ∃ shown, plan largest args = .error (.invalidArgument (.limit shown)) := by
  refine ⟨String.ofList (Numeral.write q.limit), ?_⟩
  unfold plan
  simp only [h.names, h.offset, h.limit, isNegative_int, hoffset, hneg, text?_of_lt hl.limit]
  rfl

/-- With bounds that are not negative it is up to the filters. -/
theorem Asks.plan_of_bounds (h : q.Asks args) (hoffset : ¬q.offset < 0) (hlimit : ¬q.limit < 0)
    (largest : Option Nat) : plan (setting largest) args =
      (Filter.compile (.list (q.filters.map .map))).map (q.listing largest) := by
  have hclamp : clamp (setting largest) (.int q.limit) =
      .ok (.int (pageSize largest q.limit.toNat)) := by
    rw [← clamp_setting, Int.toNat_of_nonneg (Int.not_lt.mp hlimit)]
  have hcompile : Filter.compile ((Entries.get? args (.text "filter_options")).getD .null) =
      Filter.compile (.list (q.filters.map .map)) := h.compile
  have hcolumn : (Entries.get? args (.text "order_column")).getD .null = optional q.column :=
    h.column
  have hdirection : (Entries.get? args (.text "order_method")).getD .null = optional q.direction :=
    h.direction
  unfold plan
  simp only [h.names, h.offset, h.limit, isNegative_int, hoffset, hlimit, hclamp, hcompile, hcolumn,
    hdirection]
  cases Filter.compile (.list (q.filters.map .map)) <;> rfl

/-! ### Ordering -/

theorem truthy_optional {given : Option String} :
    (optional given).truthy = true ↔ ∃ s, given = some s ∧ s ≠ "" := by
  cases given with
  | none => simp [optional, Value.truthy]
  | some s => simp [optional, Value.truthy]

/-- A search that is ordered has one clause, and any other has none. -/
theorem orders_or_not (q : Search) :
    (∃ column direction, q.Orders column direction ∧
      q.order = [.list [.text column, .text direction]]) ∨
    (∀ column direction, ¬q.Orders column direction) ∧ q.order = [] := by
  by_cases h : (optional q.column).truthy = true ∧ (optional q.direction).truthy = true
  · obtain ⟨column, hcolumn, hc⟩ := truthy_optional.mp h.1
    obtain ⟨direction, hdirection, hd⟩ := truthy_optional.mp h.2
    refine .inl ⟨column, direction, ⟨hcolumn, hdirection, hc, hd⟩, ?_⟩
    unfold order Filter.compileOrder
    rw [if_pos (by simpa using h), hcolumn, hdirection]
    rfl
  · refine .inr ⟨fun column direction ho => h ?_, ?_⟩
    · exact ⟨truthy_optional.mpr ⟨column, ho.column_eq, ho.given.1⟩,
        truthy_optional.mpr ⟨direction, ho.direction_eq, ho.given.2⟩⟩
    · unfold order Filter.compileOrder
      rw [if_neg (by simpa using h)]

theorem mem_sorting_order {conditions : List Condition} {limit offset : Value}
    {pair : Value × Value} : pair ∈ Sql.Command.sorting (.select conditions q.order limit offset) ↔
      ∃ column direction, q.Orders column direction ∧ pair = (.text column, .text direction) := by
  have horder : Sql.Command.order (.select conditions q.order limit offset) = q.order := rfl
  rw [Sql.Command.mem_sorting, horder]
  rcases q.orders_or_not with ⟨column, direction, ho, hclause⟩ | ⟨hno, hclause⟩
  · rw [hclause]
    constructor
    · rintro ⟨clause, hmem, hpair⟩
      obtain rfl := List.mem_singleton.mp hmem
      exact ⟨column, direction, ho, (Except.ok.inj hpair).symm⟩
    · rintro ⟨column', direction', ho', rfl⟩
      obtain rfl := Option.some.inj (ho.column_eq.symm.trans ho'.column_eq)
      obtain rfl := Option.some.inj (ho.direction_eq.symm.trans ho'.direction_eq)
      exact ⟨_, List.mem_singleton_self _, rfl⟩
  · rw [hclause]
    constructor
    · rintro ⟨_, hmem, _⟩
      cases hmem
    · rintro ⟨column, direction, ho, _⟩
      exact absurd ho (hno column direction)

/-! ### Making the statements -/

variable {conditions : List Condition} {limit offset : Value}

theorem wellFormed (hasks : List.Forall₂ Filter.Asks q.filters conditions) (keyColumn : Value) :
    Sql.Command.WellFormed keyColumn (.select conditions q.order limit offset) := by
  have hmeans : ∀ c ∈ conditions, ∃ name type v, Filter.Means (.text name) type v c :=
    fun _ => Filter.exists_means_of_mem hasks
  constructor
  case comparison =>
    intro c hc
    obtain ⟨_, _, _, hm⟩ := hmeans c hc
    exact hm.known
  case operands =>
    intro c hc
    obtain ⟨_, _, _, hm⟩ := hmeans c hc
    obtain ⟨values, hvalues, _⟩ := hm.operands
    exact ⟨values, hvalues⟩
  case pairs =>
    intro clause hclause
    change clause ∈ q.order at hclause
    rcases q.orders_or_not with ⟨column, direction, _, horder⟩ | ⟨_, horder⟩
    · rw [horder, List.mem_singleton] at hclause
      subst hclause
      exact ⟨_, rfl⟩
    · rw [horder] at hclause
      cases hclause
  case columns =>
    intro column hcolumn
    rcases List.mem_append.mp hcolumn with hcolumn | hcolumn
    · obtain ⟨c, hc, rfl⟩ := List.mem_map.mp hcolumn
      obtain ⟨name, _, _, hm⟩ := hmeans c hc
      exact ⟨name, by rw [hm.column_eq]; rfl⟩
    · obtain ⟨pair, hpair, rfl⟩ := List.mem_map.mp hcolumn
      obtain ⟨column, _, _, rfl⟩ := mem_sorting_order.mp hpair
      exact ⟨column, rfl⟩
  case directions =>
    intro pair hpair
    obtain ⟨_, direction, _, rfl⟩ := mem_sorting_order.mp hpair
    exact ⟨direction, rfl⟩

/-- A search with something wrong in it does not make a sound statement. -/
theorem Unsound.not_sound (h : q.Unsound t) (hl : q.Legible)
    (hasks : List.Forall₂ Filter.Asks q.filters conditions) (hoffset : ¬q.offset < 0)
    (hlimit : ¬q.limit < 0) (keyColumn : Value) :
    ¬Sql.Command.Sound t keyColumn (.select conditions q.order limit offset) := by
  intro hsound
  have hpair {column direction : String} (ho : q.Orders column direction) :
      (.text column, .text direction) ∈
        Sql.Command.sorting (.select conditions q.order limit offset) :=
    mem_sorting_order.mpr ⟨_, _, ho, rfl⟩
  cases h with
  | offset h => exact hoffset h
  | limit h => exact hlimit h
  | malformed hspec hfault =>
    obtain ⟨c, _, hc⟩ := Result.exists_of_mem_left hasks hspec
    exact hc.not_faulty (hl.filters _ hspec) hfault
  | unknownFilter hspec hname hcolumn =>
    obtain ⟨c, hmem, hc⟩ := Result.exists_of_mem_left hasks hspec
    obtain ⟨name, hname', heq⟩ :=
      hsound.columns c.column (List.mem_append_left _ (List.mem_map_of_mem hmem))
    rw [hc.column_eq hname] at heq
    exact hcolumn (Value.text.inj heq ▸ hname')
  | unknownOrder ho hcolumn =>
    obtain ⟨name, hname, heq⟩ :=
      hsound.columns _ (List.mem_append_right _ (List.mem_map_of_mem (hpair ho)))
    exact hcolumn (Value.text.inj heq ▸ hname)
  | noDirection ho hd =>
    obtain ⟨given, d, hgiven, hupper⟩ := hsound.directions _ (hpair ho)
    cases hgiven
    exact hd d hupper

theorem exists_orderClause (h : ¬q.Unsound t) : ∃ sorting, t.orderClause q.order = .ok sorting ∧
    q.Sorts (Table.suffix " ORDER BY " sorting) := by
  rcases q.orders_or_not with ⟨column, direction, ho, hclause⟩ | ⟨hno, hclause⟩
  · have hcolumn : column ∈ t.columns := by
      by_contra hn
      exact h (.unknownOrder ho hn)
    obtain ⟨d, hd⟩ : ∃ d, Text.upper direction = Sql.Direction.word d := by
      by_contra hn
      exact h (.noDirection ho (not_exists.mp hn))
    have hof : Sql.Direction.ofValue (.text direction) = .ok d :=
      Sql.Direction.ofValue_eq_ok.mpr ⟨direction, rfl, hd⟩
    have hpart : Sql.orderPart t (.list [.text column, .text direction]) =
        .ok (column ++ " " ++ d.word) := by
      change (Sql.Direction.ofValue (.text direction) >>= fun d => _) = _
      rw [hof, Result.ok_bind, Sql.Table.column_eq_ok.mpr ⟨rfl, hcolumn⟩]
      rfl
    refine ⟨column ++ " " ++ d.word, ?_, ?_⟩
    · rw [Sql.orderClause_eq, hclause, List.mapM_cons, hpart]
      rfl
    · have hne : ¬(column ++ " " ++ d.word).isEmpty = true := by simp
      rw [Table.suffix, if_neg hne, ← String.append_assoc, ← String.append_assoc]
      exact .ordered ho hd
  · refine ⟨"", ?_, .unordered hno⟩
    rw [Sql.orderClause_eq, hclause]
    rfl

theorem intText?_nat {n : Nat} (h : n < Nat.pow 10 Numeral.digitLimit) :
    Value.intText? n = .ok (toString n) := by
  have hwrite : Numeral.write n = Nat.toDigits 10 n := by
    simp [Numeral.write, Int.not_lt.mpr (Int.natCast_nonneg n)]
  rw [Value.intText?_of_lt ((Int.natAbs_natCast n).symm ▸ h), hwrite]
  rfl

theorem numberSuffix_nat {n : Nat} (h : n < Nat.pow 10 Numeral.digitLimit) (keyword : String) :
    Table.numberSuffix keyword true (.int n) = .ok (" " ++ keyword ++ " " ++ toString n) := by
  unfold Table.numberSuffix Table.wholeNumber
  simp only [↓reduceIte, Value.whole?, Result.ok_bind, intText?_nat h]
  rfl

/-- An offset of zero is left out. -/
theorem offsetSuffix_eq {n : Int} (hn : 0 ≤ n) (h : n.natAbs < Nat.pow 10 Numeral.digitLimit) :
    Table.numberSuffix "OFFSET" (Value.int n).truthy (.int n) =
      .ok (if 0 < n then " OFFSET " ++ toString n.toNat else "") := by
  obtain ⟨k, rfl⟩ := Int.eq_ofNat_of_zero_le hn
  rw [Int.natAbs_natCast] at h
  by_cases hpos : 0 < (k : Int)
  · have htruthy : (Value.int k).truthy = true := by simpa [Value.truthy] using (Int.ne_of_gt hpos)
    rw [htruthy, numberSuffix_nat h, if_pos hpos]
    rfl
  · obtain rfl : k = 0 := by omega
    rfl

theorem pageSize_le_limit (largest : Option Nat) (limit : Nat) :
    pageSize largest limit ≤ limit := by
  cases largest with
  | none => exact Nat.le_refl limit
  | some top => exact Nat.min_le_left limit top

/-- A search with nothing wrong in it has its two statements, and they can be reported. -/
theorem exists_statements (h : ¬q.Unsound t) (hl : q.Legible) (ht : Shows t.name)
    (hasks : List.Forall₂ Filter.Asks q.filters conditions) (largest : Option Nat) :
    ∃ counting selecting, q.Statements t largest counting selecting ∧
      t.count conditions = .ok counting ∧
      t.select conditions q.order (.int (pageSize largest q.limit.toNat)) (.int q.offset) =
        .ok selecting ∧
      (∀ param ∈ counting.params, ∃ json, param.2.toJson? = .ok json) ∧
      selecting.params = counting.params := by
  obtain ⟨name, hname⟩ := ht
  obtain ⟨clauses, hclauses, hparams⟩ := Sql.exists_clauses hasks
  have hcolumns : ∀ c ∈ conditions, ∃ column ∈ t.columns, c.column = .text column := by
    intro c hc
    obtain ⟨spec, hspec, hone⟩ := Result.exists_of_mem_right hasks hc
    obtain ⟨column, _, _, hcolumn, _⟩ := hone.exists_means
    refine ⟨column, ?_, hone.column_eq hcolumn⟩
    by_contra hn
    exact h (.unknownFilter hspec hcolumn hn)
  have hwhere := Sql.Table.whereClause_eq_ok hcolumns hclauses
  have hfilter : Sql.whereOf conditions = .ok (Sql.conjunction clauses) :=
    Result.bind_eq_ok.mpr ⟨clauses, hclauses, rfl⟩
  obtain ⟨sorting, horder, hsorts⟩ := exists_orderClause h
  have hoffset : 0 ≤ q.offset := Int.not_lt.mp fun hneg => h (.offset hneg)
  have hsize : pageSize largest q.limit.toNat < Nat.pow 10 Numeral.digitLimit := by
    have hle := pageSize_le_limit largest q.limit.toNat
    have hlimit := hl.limit
    omega
  have hlimit : Table.numberSuffix "LIMIT" (!(Value.int (pageSize largest q.limit.toNat)).isNull)
      (.int (pageSize largest q.limit.toNat)) =
        .ok (" LIMIT " ++ toString (pageSize largest q.limit.toNat)) :=
    numberSuffix_nat hsize "LIMIT"
  have hskip := offsetSuffix_eq hoffset hl.offset
  refine ⟨_, _, .of hname hasks hfilter hsorts, ?_, ?_, hparams, rfl⟩
  · unfold Table.count
    rw [hname, Result.ok_bind, hwhere]
    rfl
  · unfold Table.select
    rw [hname, Result.ok_bind, hwhere, Result.ok_bind, horder, Result.ok_bind, hlimit,
      Result.ok_bind, hskip]
    rfl

/-! ### Carrying a search out -/

/-- What is carried out can be reported. -/
theorem exists_record_listing (hl : q.Legible)
    (hasks : List.Forall₂ Filter.Asks q.filters conditions) (m : Model) (largest : Option Nat)
    (j : Log.Journal) : ∃ later, j.record ((q.listing largest conditions).event m) = .ok later := by
  refine Log.Journal.exists_record ?_ j
  have hconditions : ∃ json, (Value.list (conditions.map fun c =>
      .list [c.column, c.comparison.toValue, c.operand])).toJson? = .ok json := by
    refine Value.exists_toJson?_list fun v hv => ?_
    obtain ⟨c, hc, rfl⟩ := List.mem_map.mp hv
    obtain ⟨spec, _, hone⟩ := Result.exists_of_mem_right hasks hc
    exact hone.exists_toJson?
  have horder : ∃ json, (Value.list q.order).toJson? = .ok json := by
    rcases q.orders_or_not with ⟨column, direction, _, hclause⟩ | ⟨_, hclause⟩ <;>
      rw [hclause] <;> exact ⟨_, rfl⟩
  have hlimit : pageSize largest q.limit.toNat < Nat.pow 10 Numeral.digitLimit := by
    have hle := pageSize_le_limit largest q.limit.toNat
    have hlimit := hl.limit
    omega
  simp only [Listing.event, listing, List.forall_mem_cons]
  exact ⟨⟨_, rfl⟩, hconditions, horder, ⟨_, Value.toJson?_int_of_lt hl.offset⟩,
    ⟨_, Value.toJson?_int_of_lt hlimit⟩, List.forall_mem_nil _⟩

end Search

/-- A planned and reported listing is up to the store. -/
theorem run_readMultiple_of_recorded {σ : Type} {access : Access σ} {m : Model} {largest : Value}
    {args : Row} {l : Listing} {store : σ} {j later : Log.Journal}
    (hplan : plan largest args = .ok l) (hlog : j.record (l.event m) = .ok later) :
    (readMultiple access m largest args).run ⟨store, j⟩ =
      (do
        let (count, rows) ← access.findAndCount l.conditions l.order l.offset l.limit
        return .map [(.text "count", .int count), (.text "rows", .list (rows.map .map))] :
          Step σ Value).run ⟨store, later⟩ := by
  unfold readMultiple
  rw [hplan, Step.run_bind_of_ok (Step.run_ofResult _)]
  exact Step.run_bind_of_ok (Step.run_log_of_ok hlog)

/-- The failure says what is wrong with a request. -/
def Blames (e : Failure) : Prop :=
  (∃ fault, e = .malformedFilter fault) ∨ ∃ fault, e = .invalidArgument fault

section

variable {s : Sql.Store} {m : Model} {largest : Option Nat} {q : Search} {args : Row}

/-- Whatever is wrong with a search, the driver does not hear of it. -/
theorem run_of_unsound (h : q.Unsound s.table) (ht : Shows s.table.name) (hasks : q.Asks args)
    (hl : q.Legible) (l : Link) (j : Log.Journal) : ∃ e later,
      (readMultiple s.access m (setting largest) args).run ⟨l, j⟩ = (.error e, ⟨l, later⟩) ∧
        Blames e := by
  have hrefused {e : Failure} (hplan : plan (setting largest) args = .error e) :
      (readMultiple s.access m (setting largest) args).run ⟨l, j⟩ = (.error e, ⟨l, j⟩) := by
    unfold readMultiple
    rw [hplan]
    exact Step.run_bind_of_error (Step.run_ofResult _)
  by_cases hoffset : q.offset < 0
  · obtain ⟨shown, hplan⟩ := hasks.plan_of_negative_offset hl hoffset (setting largest)
    exact ⟨_, j, hrefused hplan, .inr ⟨_, rfl⟩⟩
  by_cases hlimit : q.limit < 0
  · obtain ⟨shown, hplan⟩ := hasks.plan_of_negative_limit hl hoffset hlimit (setting largest)
    exact ⟨_, j, hrefused hplan, .inr ⟨_, rfl⟩⟩
  have hplan := hasks.plan_of_bounds hoffset hlimit largest
  cases hcompile : Filter.compile (.list (q.filters.map .map)) with
  | error e =>
    rw [hcompile] at hplan
    obtain ⟨fault, _, rfl⟩ := (Filter.compile_eq_error hl.filters).mp hcompile
    exact ⟨_, j, hrefused hplan, .inl ⟨fault, rfl⟩⟩
  | ok conditions =>
    -- the listing is planned and reported, and then its statements cannot be made
    rw [hcompile] at hplan
    have hconditions := (Filter.compile_eq_ok hl.filters).mp hcompile
    obtain ⟨later, hlog⟩ := Search.exists_record_listing hl hconditions m largest j
    obtain ⟨fault, hlist⟩ := Sql.Store.run_list_refused ht
      (Search.wellFormed hconditions (.text s.primaryKey))
      (h.not_sound hl hconditions hoffset hlimit (.text s.primaryKey)) ⟨l, later⟩
    refine ⟨_, later, ?_, .inr ⟨fault, rfl⟩⟩
    rw [run_readMultiple_of_recorded hplan hlog]
    exact Step.run_bind_of_error hlist

/-- A search with nothing wrong in it is carried out. -/
theorem run_of_sound (h : ¬q.Unsound s.table) (ht : Shows s.table.name) (hasks : q.Asks args)
    (hl : q.Legible) : ∃ counting selecting, q.Statements s.table largest counting selecting ∧
      ∀ {l : Link} {total : Int}, l.Counts total → ∀ j, ∃ later,
        (readMultiple s.access m (setting largest) args).run ⟨l, j⟩ =
          ((l.outcome 1).records.map fun rows =>
            .map [(.text "count", .int total), (.text "rows", .list (rows.map .map))], later) ∧
        Sql.Ran l (Sql.Visit.done (Sql.counted counting selecting) false).calls later.store := by
  have hoffset : ¬q.offset < 0 := fun hneg => h (.offset hneg)
  have hlimit : ¬q.limit < 0 := fun hneg => h (.limit hneg)
  have hplan := hasks.plan_of_bounds hoffset hlimit largest
  cases hcompile : Filter.compile (.list (q.filters.map .map)) with
  | error e =>
    obtain ⟨fault, ⟨before, spec, after, hsplit, _, hfault⟩, _⟩ :=
      (Filter.compile_eq_error hl.filters).mp hcompile
    have hspec : spec ∈ q.filters := hsplit ▸ List.mem_append_right _ List.mem_cons_self
    exact absurd (.malformed hspec hfault) h
  | ok conditions =>
    rw [hcompile] at hplan
    have hconditions := (Filter.compile_eq_ok hl.filters).mp hcompile
    obtain ⟨counting, selecting, hstatements, hcount, hselect, hparams, hsame⟩ :=
      Search.exists_statements h hl ht hconditions largest
    refine ⟨counting, selecting, hstatements, fun {l total} hcounts j => ?_⟩
    obtain ⟨reported, hlog⟩ := Search.exists_record_listing hl hconditions m largest j
    obtain ⟨later, hlist, hran⟩ := Sql.Store.run_list hcounts hcount hselect
      (Sql.exists_record_sent hparams) (Sql.exists_record_sent (hsame ▸ hparams)) reported
    refine ⟨later, ?_, hran⟩
    rw [run_readMultiple_of_recorded hplan hlog]
    have hrun : (s.access.findAndCount (q.listing largest conditions).conditions
        (q.listing largest conditions).order (q.listing largest conditions).offset
        (q.listing largest conditions).limit).run ⟨l, reported⟩ = _ := hlist
    rw [Step.run_bind, hrun]
    cases (l.outcome 1).records <;> rfl

end

/-- **A listing is checked before the database is asked.** Take a search of a table, with any
bounds, filters that give texts, and an ordering. If there is something wrong in it, the request is
refused as malformed or for an argument, and the driver is not called. Else it has two statements,
which count and select under one condition with the same parameters, the one that selects within the
limit in force and from the offset on; and where the driver carries them out, the request opens one
connection, executes just these two, and is answered with the number that the first gives and the
records that the second finds. -/
theorem listing_checked_first (s : Sql.Store) (ht : Shows s.table.name) (m : Model)
    (largest : Option Nat) {q : Search} {args : Row} (hasks : q.Asks args) (hl : q.Legible) :
    let listing (l : Link) (j : Log.Journal) :=
      (readMultiple s.access m (setting largest) args).run ⟨l, j⟩
    (q.Unsound s.table → ∀ l j, ∃ e later, listing l j = (.error e, ⟨l, later⟩) ∧ Blames e) ∧
    (¬q.Unsound s.table → ∃ counting selecting, q.Statements s.table largest counting selecting ∧
      ∀ {l : Link} {total : Int}, l.Counts total → ∀ j, ∃ later,
        listing l j = ((l.outcome 1).records.map fun rows =>
          .map [(.text "count", .int total), (.text "rows", .list (rows.map .map))], later) ∧
        Sql.Ran l (Sql.Visit.done (Sql.counted counting selecting) false).calls later.store) :=
  ⟨fun h => run_of_unsound h ht hasks hl, fun h => run_of_sound h ht hasks hl⟩

/-- Users named like someone, the last first, from the sixth on and two at most. Upwards is no
direction, and then no one is looked for. -/
theorem listing_checked_first_of_users :
    let s : Sql.Store := ⟨⟨.text "users", ["id", "name"]⟩, "id", none⟩
    let m : Model := ⟨"User", .key "id" .int, [], []⟩
    let spec : List (Value × Value) := [(.text "value_type", .text "String"),
      (.text "column_name", .text "name"), (.text "value", .text "Jo")]
    let args (direction : String) : Row := [(.text "offset", .int 5), (.text "limit", .int 50),
      (.text "filter_options", .list [.map spec]), (.text "order_column", .text "name"),
      (.text "order_method", .text direction)]
    let q (direction : String) : Search := ⟨5, 50, [spec], some "name", some direction⟩
    let l : Link := { outcomes := [{ rows := [[.int 7]] },
      { columns := some ["id", "name"], rows := [[.int 3, .text "Jo"]] }] }
    let found : Row := [(.text "id", .int 3), (.text "name", .text "Jo")]
    let j : Log.Journal := { threshold := .int Log.debug }
    (∃ counting selecting later, (q "desc").Statements s.table (some 2) counting selecting ∧
      (readMultiple s.access m (setting (some 2)) (args "desc")).run ⟨l, j⟩ =
        (.ok (.map [(.text "count", .int 7), (.text "rows", .list [.map found])]), later) ∧
      later.store.calls = (Sql.Visit.done (Sql.counted counting selecting) false).calls) ∧
    (q "up").Unsound s.table ∧ ∃ e later,
      (readMultiple s.access m (setting (some 2)) (args "up")).run ⟨l, j⟩ =
        (.error e, ⟨l, later⟩) ∧ Blames e := by
  intro s m spec args q l found j
  have hasks (direction : String) : (q direction).Asks (args direction) := by
    have hnames : checkListingNames (args direction) = .ok () := by
      simp [checkListingNames, checkNames, args, listingNames, isReserved, reservedNames,
        Value.isText]
    refine ⟨hnames, ?_, ?_, .inl ?_, ?_, ?_⟩ <;>
      simp [args, q, optional, Value.field, Value.lookup, Entries.get?]
  have htext : Filter.Textual spec := by
    simp [spec, Filter.Textual, Filter.names, Value.field, Value.lookup, Entries.get?]
  have hl (direction : String) : (q direction).Legible := by
    have hfive : 5 < Nat.pow 10 Numeral.digitLimit := by decide +kernel
    have hfifty : 50 < Nat.pow 10 Numeral.digitLimit := by decide +kernel
    exact ⟨hfive, hfifty, List.forall_mem_singleton.mpr htext⟩
  have hname : Filter.Names spec "name" := by
    refine .name (by decide) ?_ (.inl ?_) <;>
      simp [spec, Value.field, Value.lookup, Entries.get?]
  have hspec : Filter.Asks spec ⟨.text "name", .like, .text (Filter.containing "Jo")⟩ := by
    have hvalue : Value.field spec "value" = .text "Jo" := by with_unfolding_all rfl
    have htype : Value.field spec "value_type" = .text "String" := by with_unfolding_all rfl
    refine .of hvalue hname ?_
    rw [htype]
    exact .part "Jo"
  have hsound : ¬(q "desc").Unsound s.table := by
    rintro (h | h | ⟨hmem, h⟩ | ⟨hmem, h, hcolumn⟩ | ⟨h, hcolumn⟩ | ⟨h, hd⟩)
    · exact absurd h (by decide)
    · exact absurd h (by decide)
    · obtain rfl := List.mem_singleton.mp hmem
      exact hspec.not_faulty htext h
    · obtain rfl := List.mem_singleton.mp hmem
      exact hcolumn (h.unique hname ▸ by decide)
    · cases h.column_eq
      exact hcolumn (by decide)
    · cases h.direction_eq
      exact hd .descending (by decide +kernel)
  have hunsound : (q "up").Unsound s.table := by
    refine .noDirection ⟨rfl, rfl, by decide⟩ fun d => ?_
    cases d <;> decide +kernel
  have hdesc := listing_checked_first s ⟨"users", rfl⟩ m (some 2) (hasks "desc") (hl "desc")
  have hup := listing_checked_first s ⟨"users", rfl⟩ m (some 2) (hasks "up") (hl "up")
  obtain ⟨counting, selecting, hstatements, hrun⟩ := hdesc.2 hsound
  have hcounts : l.Counts 7 := ⟨rfl, rfl, rfl, rfl⟩
  obtain ⟨later, hanswer, hran⟩ := hrun hcounts j
  have hrecords : (l.outcome 1).records = .ok [found] := by with_unfolding_all rfl
  rw [hrecords] at hanswer
  exact ⟨⟨counting, selecting, later, hstatements, hanswer, hran.calls⟩, hunsound,
    hup.1 hunsound l j⟩

/-- A column to order by that the table does not have is passed over if no direction comes with it.
Without a number for the count the selection is not executed, and a bound that is too long to be
written is not even blamed. -/
theorem listing_not_checked :
    let s : Sql.Store := ⟨⟨.text "tag", ["id"]⟩, "id", none⟩
    let m : Model := ⟨"Tag", .key "id" .int, [], []⟩
    let l : Link := { outcomes := [{ rows := [[.int 0]] }] }
    let listing (args : Row) (l : Link) := (readMultiple s.access m .null args).run ⟨l, {}⟩
    let unordered := listing [(.text "limit", .int 10), (.text "order_column", .text "size")] l
    let uncounted := listing [(.text "limit", .int 10)] {}
    let endless := listing [(.text "offset", .int (-(10 ^ 4300 : Nat)))] {}
    let blames : Result Value → Bool
      | .error (.malformedFilter _) | .error (.invalidArgument _) => true
      | _ => false
    (unordered.1.isOk = true ∧ unordered.2.store.calls.countP Sql.Call.isExecute = 2) ∧
    (uncounted.1.isOk = false ∧ uncounted.2.store.calls.countP Sql.Call.isExecute = 1) ∧
    (endless.1.isOk = false ∧ blames endless.1 = false) := by
  decide +kernel

end Resolver

end EntityApi
