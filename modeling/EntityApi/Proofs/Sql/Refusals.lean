import EntityApi.Proofs.Sql.Texts

/-! # Which commands are refused for their arguments

Every step in the making of a statement either goes through or refuses an argument,
if only the command has the shape that commands have (`Command.WellFormed`). So a
well-formed command with a column that the table does not have, or with a direction
other than the two, is refused for that argument and has no text
(`refuses_of_not_sound`). Together with what is known of the texts of accepted
commands this is `text_determined_by_outline`. -/
namespace EntityApi

namespace Sql

variable {α β : Type}

/-- An argument is refused. -/
def Refuses (r : Result α) : Prop := ∃ fault, r = .error (.invalidArgument fault)

/-- The outcome is a success, or an argument is refused. -/
def Decides (r : Result α) : Prop := (∃ a, r = .ok a) ∨ Refuses r

theorem Refuses.bind {r : Result α} (h : Refuses r) (f : α → Result β) : Refuses (r >>= f) := by
  obtain ⟨fault, rfl⟩ := h
  exact ⟨fault, rfl⟩

theorem Decides.bind {r : Result α} {f : α → Result β} (h : Decides r)
    (hf : ∀ a, r = .ok a → Decides (f a)) : Decides (r >>= f) := by
  rcases h with ⟨a, rfl⟩ | h
  · exact hf a rfl
  · exact .inr (h.bind f)

theorem Decides.ok (a : α) : Decides (.ok a : Result α) := .inl ⟨a, rfl⟩

theorem decides_mapM {f : α → Result β} {as : List α} (h : ∀ a ∈ as, Decides (f a)) :
    Decides (as.mapM f) := by
  induction as with
  | nil => exact .ok []
  | cons a as ih =>
    rw [List.mapM_cons]
    obtain ⟨ha, has⟩ := List.forall_mem_cons.mp h
    exact ha.bind fun b _ => (ih has).bind fun bs _ => .ok (b :: bs)

/-! ## Commands of the right shape -/

/-- The value has a form as a text. -/
def Shows (v : Value) : Prop := ∃ s, v.text? = .ok s

namespace Command

def conditions : Command → List Condition
  | select conditions _ _ _ => conditions
  | count conditions => conditions
  | _ => []

/-- The ordering clauses. -/
def order : Command → List Value
  | select _ order _ _ => order
  | _ => []

/-- What the ordering clauses consist of: columns with directions. -/
def sorting (command : Command) : List (Value × Value) :=
  command.order.filterMap fun clause => (orderParts clause).toOption

/-- Everything that a command passes as a column, where `keyColumn` is the key of the table. -/
def columns (keyColumn : Value) : Command → List Value
  | select conditions order limit offset =>
    conditions.map Condition.column ++ (select conditions order limit offset).sorting.map Prod.fst
  | count conditions => conditions.map Condition.column
  | selectByKey => [keyColumn]
  | insert fields => Entries.keys fields
  | update _ fields => Entries.keys fields ++ [keyColumn]

/-- Conditions are comparisons that statements have, with operands for their placeholders; ordering
clauses are pairs; columns and directions have a form as text. -/
structure WellFormed (keyColumn : Value) (command : Command) : Prop where
  comparison : ∀ c ∈ command.conditions, c.comparison.Known
  operands : ∀ c ∈ command.conditions, ∃ values, Clause.operands c = .ok values
  pairs : ∀ clause ∈ command.order, ∃ pair, orderParts clause = .ok pair
  columns : ∀ column ∈ command.columns keyColumn, Shows column
  directions : ∀ pair ∈ command.sorting, Shows pair.2

/-- All columns are columns of the table, and each direction is one of the two, in any case. -/
structure Sound (t : Table) (keyColumn : Value) (command : Command) : Prop where
  columns : ∀ column ∈ command.columns keyColumn, ∃ name ∈ t.columns, column = .text name
  directions : ∀ pair ∈ command.sorting, ∃ given d, pair.2.text? = .ok given ∧
    Text.upper given = Direction.word d

theorem mem_sorting {command : Command} {pair : Value × Value} :
    pair ∈ command.sorting ↔ ∃ clause ∈ command.order, orderParts clause = .ok pair := by
  unfold sorting
  rw [List.mem_filterMap]
  refine exists_congr fun clause => and_congr_right fun _ => ?_
  cases orderParts clause <;> simp [Except.toOption]

end Command

/-! ## The parts of a statement -/

section

variable {t : Table}

theorem column_decides {name : Value} (hname : Shows name) (ht : Shows t.name) :
    Decides (t.column name) := by
  obtain ⟨shown, hshown⟩ := hname
  obtain ⟨table, htable⟩ := ht
  by_cases hknown : ∃ c ∈ t.columns, name = .text c
  · obtain ⟨c, hc, rfl⟩ := hknown
    exact .inl ⟨c, Table.column_eq_ok.mpr ⟨rfl, hc⟩⟩
  · push Not at hknown
    exact .inr ⟨_, Table.column_of_unknown hknown hshown htable⟩

theorem columns_decide {names : List Value} (hnames : ∀ name ∈ names, Shows name)
    (ht : Shows t.name) : Decides (names.mapM t.column) :=
  decides_mapM fun name hname => column_decides (hnames name hname) ht

theorem direction_decides {v : Value} (hv : Shows v) : Decides (Direction.ofValue v) := by
  obtain ⟨given, hgiven⟩ := hv
  unfold Direction.ofValue
  rw [hgiven, Result.ok_bind]
  cases Direction.ofWord? (Text.upper given) with
  | some d => exact .ok d
  | none => exact .inr ⟨_, rfl⟩

theorem whereClause_decides {conditions : List Condition} (ht : Shows t.name)
    (hk : ∀ c ∈ conditions, c.comparison.Known)
    (hv : ∀ c ∈ conditions, ∃ values, Clause.operands c = .ok values)
    (hc : ∀ c ∈ conditions, Shows c.column) : Decides (t.whereClause conditions) := by
  rw [Table.whereClause_eq]
  refine (decides_mapM fun c hmem => column_decides (hc c hmem) ht).bind fun _ _ => ?_
  obtain ⟨clauses, hclauses⟩ := clausesFrom_isOk 0 hk hv hc
  exact .inl ⟨conjunction clauses, Result.bind_eq_ok.mpr ⟨clauses, hclauses, rfl⟩⟩

theorem orderClause_decides {order : List Value} (ht : Shows t.name)
    (hparts : ∀ clause ∈ order, ∃ pair, orderParts clause = .ok pair ∧ Shows pair.1 ∧
      Shows pair.2) : Decides (t.orderClause order) := by
  rw [orderClause_eq]
  refine (decides_mapM fun clause hclause => ?_).bind fun texts _ => .ok _
  obtain ⟨⟨column, direction⟩, hpair, hcolumn, hdirection⟩ := hparts clause hclause
  unfold orderPart
  rw [hpair, Result.ok_bind]
  exact (direction_decides hdirection).bind fun d _ =>
    (column_decides hcolumn ht).bind fun name _ => .ok _

/-! ## Commands -/

variable {keyColumn : Value}

/-- What goes into the conditions of an accepted statement are columns. -/
theorem columns_of_whereClause {conditions : List Condition} {w : Statement}
    (h : t.whereClause conditions = .ok w) :
    ∀ column ∈ conditions.map Condition.column, ∃ name ∈ t.columns, column = .text name := by
  obtain ⟨parts, hparts, hknown, _⟩ := whereClause_parts h
  have hcolumns : conditions.map Condition.column = parts.map fun part => .text part.1 := by
    have := congrArg (List.map Prod.fst) hparts
    rwa [List.map_map, List.map_map] at this
  rw [hcolumns]
  intro column hcolumn
  obtain ⟨part, hpart, rfl⟩ := List.mem_map.mp hcolumn
  exact ⟨part.1, hknown part hpart, rfl⟩

/-- What goes into the ordering of an accepted statement are columns and directions. -/
theorem sorting_of_orderClause {order : List Value} {sorting : String}
    (h : t.orderClause order = .ok sorting) {clause : Value} (hclause : clause ∈ order)
    {column direction : Value} (hpair : orderParts clause = .ok (column, direction)) :
    (∃ name ∈ t.columns, column = .text name) ∧
      ∃ given d, direction.text? = .ok given ∧ Text.upper given = Direction.word d := by
  rw [orderClause_eq] at h
  obtain ⟨texts, htexts, _⟩ := Result.bind_eq_ok.mp h
  obtain ⟨text, _, htext⟩ := Result.exists_of_mem_left (Result.mapM_eq_ok.mp htexts) hclause
  unfold orderPart at htext
  rw [hpair, Result.ok_bind] at htext
  obtain ⟨d, hd, htext⟩ := Result.bind_eq_ok.mp htext
  obtain ⟨name, hname, _⟩ := Result.bind_eq_ok.mp htext
  obtain ⟨hcolumn, hmem⟩ := Table.column_eq_ok.mp hname
  obtain ⟨given, hgiven, hupper⟩ := Direction.ofValue_eq_ok.mp hd
  exact ⟨⟨name, hmem, hcolumn⟩, given, d, hgiven, hupper⟩

/-- The columns that become the names of fields are columns of the table. -/
theorem columns_of_names {keys : List Value} {names : List String}
    (h : keys.mapM t.column = .ok names) :
    ∀ column ∈ keys, ∃ name ∈ t.columns, column = .text name := by
  intro column hcolumn
  obtain ⟨name, _, hname⟩ := Result.exists_of_mem_left (Result.mapM_eq_ok.mp h) hcolumn
  obtain ⟨hcolumn, hmem⟩ := Table.column_eq_ok.mp hname
  exact ⟨name, hmem, hcolumn⟩

/-! ### Statements on columns of the table

Once the columns are there, only the name of the table can keep a statement from being made. -/

theorem selectByKey_eq_map {key : String} (hk : key ∈ t.columns) :
    ∃ make, t.selectByKey (.text key) = t.name.text?.map make := by
  unfold Table.selectByKey
  rw [Table.column_eq_ok.mpr ⟨rfl, hk⟩]
  exact ⟨_, by cases t.name.text? <;> rfl⟩

section

variable {fields : Row} (hf : ∀ name ∈ Entries.keys fields, ∃ c ∈ t.columns, name = .text c)

include hf

theorem insert_eq_map : ∃ make, t.insert fields = t.name.text?.map make := by
  obtain ⟨names, params, hassigned⟩ := Table.exists_assignments hf
  unfold Table.insert
  rw [hassigned, Result.ok_bind]
  cases names <;> exact ⟨_, by cases t.name.text? <;> rfl⟩

theorem update_eq_map {key : String} (hne : fields ≠ []) (hk : key ∈ t.columns) (v : Value) :
    ∃ make, t.update (.text key) v fields = t.name.text?.map make := by
  obtain ⟨names, params, hassigned⟩ := Table.exists_assignments hf
  obtain ⟨hkeys, _⟩ := assignments_eq_ok hassigned
  unfold Table.update
  rw [hassigned, Result.ok_bind, Table.column_eq_ok.mpr ⟨rfl, hk⟩]
  cases names with
  | nil => exact absurd (List.map_eq_nil_iff.mp hkeys) hne
  | cons first names => exact ⟨_, by cases t.name.text? <;> rfl⟩

end

/-! ### Refused commands -/

theorem select_refuses {conditions : List Condition} {order : List Value} {limit offset : Value}
    (ht : Shows t.name)
    (hw : Command.WellFormed keyColumn (.select conditions order limit offset))
    (hs : ¬ Command.Sound t keyColumn (.select conditions order limit offset)) :
    Refuses (t.select conditions order limit offset) := by
  have hcolumns : ∀ c ∈ conditions, Shows c.column := fun c hc =>
    hw.columns _ (List.mem_append_left _ (List.mem_map_of_mem hc))
  have hparts : ∀ clause ∈ order, ∃ pair, orderParts clause = .ok pair ∧ Shows pair.1 ∧
      Shows pair.2 := by
    intro clause hclause
    obtain ⟨pair, hpair⟩ := hw.pairs clause hclause
    have hmem : pair ∈ Command.sorting (.select conditions order limit offset) :=
      Command.mem_sorting.mpr ⟨clause, hclause, hpair⟩
    exact ⟨pair, hpair, hw.columns _ (List.mem_append_right _ (List.mem_map_of_mem hmem)),
      hw.directions pair hmem⟩
  obtain ⟨table, htable⟩ := id ht
  unfold Table.select
  rw [htable, Result.ok_bind]
  rcases whereClause_decides ht hw.comparison hw.operands hcolumns with ⟨w, hwhere⟩ | hwhere
  case inr => exact hwhere.bind _
  rw [show t.whereClause conditions = .ok w from hwhere, Result.ok_bind]
  rcases orderClause_decides ht hparts with ⟨sorting, horder⟩ | horder
  case inr => exact horder.bind _
  -- both clauses are there, so that nothing is left that could be unsound
  refine absurd ⟨?_, ?_⟩ hs
  · intro column hcolumn
    rcases List.mem_append.mp hcolumn with hcolumn | hcolumn
    · exact columns_of_whereClause hwhere column hcolumn
    · obtain ⟨pair, hpair, rfl⟩ := List.mem_map.mp hcolumn
      obtain ⟨clause, hclause, hpair⟩ := Command.mem_sorting.mp hpair
      exact (sorting_of_orderClause horder hclause hpair).1
  · intro pair hpair
    obtain ⟨clause, hclause, hpair⟩ := Command.mem_sorting.mp hpair
    exact (sorting_of_orderClause horder hclause hpair).2

theorem count_refuses {conditions : List Condition} (ht : Shows t.name)
    (hw : Command.WellFormed keyColumn (.count conditions))
    (hs : ¬ Command.Sound t keyColumn (.count conditions)) : Refuses (t.count conditions) := by
  have hcolumns : ∀ c ∈ conditions, Shows c.column := fun c hc =>
    hw.columns _ (List.mem_map_of_mem hc)
  obtain ⟨table, htable⟩ := id ht
  unfold Table.count
  rw [htable, Result.ok_bind]
  rcases whereClause_decides ht hw.comparison hw.operands hcolumns with ⟨w, hwhere⟩ | hwhere
  case inr => exact hwhere.bind _
  exact absurd ⟨columns_of_whereClause hwhere, nofun⟩ hs

theorem selectByKey_refuses (ht : Shows t.name) (hw : Command.WellFormed keyColumn .selectByKey)
    (hs : ¬ Command.Sound t keyColumn .selectByKey) : Refuses (t.selectByKey keyColumn) := by
  obtain ⟨table, htable⟩ := id ht
  unfold Table.selectByKey
  rw [htable, Result.ok_bind]
  rcases column_decides (hw.columns _ List.mem_cons_self) ht with ⟨name, hname⟩ | hname
  case inr => exact hname.bind _
  obtain ⟨hcolumn, hmem⟩ := Table.column_eq_ok.mp hname
  exact absurd ⟨List.forall_mem_singleton.mpr ⟨name, hmem, hcolumn⟩, nofun⟩ hs

theorem insert_refuses {fields : Row} (ht : Shows t.name)
    (hw : Command.WellFormed keyColumn (.insert fields))
    (hs : ¬ Command.Sound t keyColumn (.insert fields)) : Refuses (t.insert fields) := by
  unfold Table.insert Table.assignments
  rcases columns_decide hw.columns ht with ⟨names, hnames⟩ | hnames
  case inr => exact (hnames.bind _).bind _
  exact absurd ⟨columns_of_names hnames, nofun⟩ hs

theorem update_refuses {key : Value} {fields : Row} (ht : Shows t.name)
    (hw : Command.WellFormed keyColumn (.update key fields))
    (hs : ¬ Command.Sound t keyColumn (.update key fields)) :
    Refuses (t.update keyColumn key fields) := by
  obtain ⟨table, htable⟩ := id ht
  unfold Table.update Table.assignments
  rcases columns_decide (fun c hc => hw.columns c (List.mem_append_left _ hc)) ht
    with ⟨names, hnames⟩ | hnames
  case inr => exact (hnames.bind _).bind _
  rw [hnames, Result.ok_bind, pure_bind, htable]
  cases names with
  | nil => exact ⟨_, rfl⟩
  | cons first names =>
    change Refuses (t.column keyColumn >>= _)
    rcases column_decides (hw.columns _ (List.mem_append_right _ List.mem_cons_self)) ht
      with ⟨name, hname⟩ | hname
    case inr => exact hname.bind _
    obtain ⟨hcolumn, hmem⟩ := Table.column_eq_ok.mp hname
    exact absurd ⟨List.forall_mem_append.mpr ⟨columns_of_names hnames,
      List.forall_mem_singleton.mpr ⟨name, hmem, hcolumn⟩⟩, nofun⟩ hs

/-- A well-formed command that is not sound for the table is refused for an argument. -/
theorem refuses_of_not_sound {command : Command} (ht : Shows t.name)
    (hw : command.WellFormed keyColumn) (hs : ¬ command.Sound t keyColumn) :
    Refuses (t.make keyColumn command) := by
  cases command with
  | select => exact (select_refuses ht hw hs).bind _
  | count => exact (count_refuses ht hw hs).bind _
  | selectByKey => exact selectByKey_refuses ht hw hs
  | insert => exact (insert_refuses ht hw hs).bind _
  | update => exact (update_refuses ht hw hs).bind _

end

/-! ## Main result -/

/-- **What the text of a statement depends on.** Whatever the table, two accepted commands with one
outline have one text, so that no operand, no value of a field and no key that is looked for gets
into it. The text of an accepted command is written from its outline, which consists of columns of
the table and of the words for the two directions. A well-formed command with any other column or
direction is refused for an argument. -/
theorem text_determined_by_outline (t : Table) (keyColumn : Value) :
    (∀ (a b : Command) (textA textB : String), t.make keyColumn a = .ok textA →
      t.make keyColumn b = .ok textB → a.outline keyColumn = b.outline keyColumn →
      textA = textB) ∧
    (∀ (a : Command) (text : String), t.make keyColumn a = .ok text →
      Written t (a.outline keyColumn) text) ∧
    (∀ a : Command, Shows t.name → a.WellFormed keyColumn → ¬ a.Sound t keyColumn →
      Refuses (t.make keyColumn a)) := by
  refine ⟨?_, fun a text => written_of_make, fun a => refuses_of_not_sound⟩
  intro a b textA textB ha hb hab
  have hwritten := written_of_make ha
  rw [hab] at hwritten
  exact hwritten.unique (written_of_make hb)

/-- Two searches for names with unlike texts have one text, although direction and limit are spelled
differently; a search for passwords is refused. -/
theorem text_determined_by_outline_of_users :
    let users : Table := ⟨.text "users", ["id", "name"]⟩
    let search (column part direction : String) (limit : Value) : Command :=
      .select [⟨.text column, .like, .text part⟩]
        [.list [.text "name", .text direction]] limit (.int 0)
    (∃ text, users.make (.text "id") (search "name" "%Jo%" "asc" (.int 5)) = .ok text ∧
      users.make (.text "id") (search "name" "' OR 1 = 1" "Asc" (.text "5")) = .ok text ∧
      Written users ((search "name" "%Jo%" "asc" (.int 5)).outline (.text "id")) text) ∧
    Refuses (users.make (.text "id") (search "password" "%Jo%" "asc" .null)) := by
  intro users search
  obtain ⟨same, written, refused⟩ := text_determined_by_outline users (.text "id")
  obtain ⟨textA, ha⟩ := Result.exists_of_isOk
    (x := users.make (.text "id") (search "name" "%Jo%" "asc" (.int 5))) (by decide +kernel)
  obtain ⟨textB, hb⟩ := Result.exists_of_isOk
    (x := users.make (.text "id") (search "name" "' OR 1 = 1" "Asc" (.text "5")))
    (by decide +kernel)
  have hab := same _ _ _ _ ha hb (by rfl)
  refine ⟨⟨textA, ha, hab ▸ hb, written _ _ ha⟩, refused _ ⟨_, rfl⟩ ⟨?_, ?_, ?_, ?_, ?_⟩ ?_⟩
  · exact List.forall_mem_singleton.mpr nofun
  · exact List.forall_mem_singleton.mpr ⟨_, rfl⟩
  · exact List.forall_mem_singleton.mpr ⟨_, rfl⟩
  · exact List.forall_mem_cons.mpr ⟨⟨_, rfl⟩, List.forall_mem_singleton.mpr ⟨_, rfl⟩⟩
  · exact List.forall_mem_singleton.mpr ⟨_, rfl⟩
  · intro hsound
    obtain ⟨name, hname, heq⟩ := hsound.columns (.text "password") List.mem_cons_self
    cases heq
    exact absurd hname (by decide)

end Sql

end EntityApi
