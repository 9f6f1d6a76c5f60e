import EntityApi.Proofs.Sql.Clauses
import Mathlib.Data.Prod.Basic

/-! # What the text of a statement depends on

A command for a table comes from a client: it holds columns and directions in any
spelling, numbers in any form, and values. Of all that only an outline gets into
the text of its statement (`Command.outline`): which columns are compared and how,
which are sorted in which direction, the two numbers, the names of the fields. An
accepted command has an outline that is made of columns of the table and of the
two words for directions (`written_of_make`), and its text is written from those
(`Form.text`), so that two commands with one outline have one text, whatever their
values are (`Written.unique`). -/
namespace EntityApi

namespace Sql

/-! ## Commands and forms -/

/-- A command for a table: the statement that is asked for, with all that its caller passes. -/
inductive Command where
  | select (conditions : List Condition) (order : List Value) (limit offset : Value)
  | count (conditions : List Condition)
  | selectByKey
  | insert (fields : Row)
  | update (key : Value) (fields : Row)

/-- The text of the statement for a command, where `keyColumn` is the key of the table. -/
def Table.make (t : Table) (keyColumn : Value) : Command → Result String
  | .select conditions order limit offset => do
    return (← t.select conditions order limit offset).sql
  | .count conditions => do return (← t.count conditions).sql
  | .selectByKey => t.selectByKey keyColumn
  | .insert fields => do return (← t.insert fields).sql
  | .update key fields => do return (← t.update keyColumn key fields).sql

/-- The forms of a statement, by what stands in it for columns and for directions. -/
inductive Form (γ δ : Type) where
  | select (conditions : List (γ × Comparison)) (order : List (γ × δ)) (limit offset : Option Int)
  | count (conditions : List (γ × Comparison))
  | selectByKey (key : γ)
  | insert (names : List γ)
  | update (names : List γ) (key : γ)

namespace Form

variable {γ δ γ' δ' : Type}

def map (f : γ → γ') (g : δ → δ') : Form γ δ → Form γ' δ'
  | select conditions order limit offset =>
    select (conditions.map (Prod.map f id)) (order.map (Prod.map f g)) limit offset
  | count conditions => count (conditions.map (Prod.map f id))
  | selectByKey key => selectByKey (f key)
  | insert names => insert (names.map f)
  | update names key => update (names.map f) (f key)

theorem map_injective {f : γ → γ'} {g : δ → δ'} (hf : f.Injective) (hg : g.Injective) :
    (map f g).Injective := by
  have hconditions : (List.map (Prod.map f (id : Comparison → Comparison))).Injective :=
    List.map_injective_iff.mpr (hf.prodMap Function.injective_id)
  have horder : (List.map (Prod.map f g)).Injective :=
    List.map_injective_iff.mpr (hf.prodMap hg)
  have hnames : (List.map f).Injective := List.map_injective_iff.mpr hf
  intro a b h
  cases a with
  | select => cases b <;> simp_all [map, hconditions.eq_iff, horder.eq_iff]
  | count => cases b <;> simp_all [map, hconditions.eq_iff]
  | selectByKey => cases b <;> simp_all [map, hf.eq_iff]
  | insert => cases b <;> simp_all [map, hnames.eq_iff]
  | update => cases b <;> simp_all [map, hnames.eq_iff, hf.eq_iff]

/-- The columns that stand in a statement besides the list of all of them. -/
def columns : Form γ δ → List γ
  | select conditions order _ _ => conditions.map Prod.fst ++ order.map Prod.fst
  | count conditions => conditions.map Prod.fst
  | selectByKey key => [key]
  | insert names => names
  | update names key => names ++ [key]

/-- Comparisons of columns, with placeholders numbered from `start`. -/
def comparisonsFrom : Nat → List (String × Comparison) → List String
  | _, [] => []
  | start, (column, comparison) :: rest =>
    Clause.text ⟨column, comparison, placeAt start, []⟩ :: comparisonsFrom (start + 1) rest

def conditionText (conditions : List (String × Comparison)) : String :=
  " AND ".intercalate (comparisonsFrom 0 conditions)

def orderText (order : List (String × Direction)) : String :=
  ", ".intercalate (order.map fun part => part.1 ++ " " ++ part.2.word)

def numberText (keyword : String) : Option Int → String
  | none => ""
  | some n => " " ++ keyword ++ " " ++ String.ofList (Numeral.write n)

/-- The text of a statement of this form, for a table of the name and with the columns `all`. -/
def text (name : String) (all : List String) : Form String Direction → String
  | select conditions order limit offset =>
    "SELECT " ++ ", ".intercalate all ++ " FROM " ++ name ++
      Table.suffix " WHERE " (conditionText conditions) ++
      Table.suffix " ORDER BY " (orderText order) ++ numberText "LIMIT" limit ++
      numberText "OFFSET" offset
  | count conditions =>
    "SELECT COUNT(*) FROM " ++ name ++ Table.suffix " WHERE " (conditionText conditions)
  | selectByKey key =>
    "SELECT " ++ ", ".intercalate all ++ " FROM " ++ name ++ " WHERE " ++ key ++ " = :key LIMIT 1"
  | insert [] => "INSERT INTO " ++ name ++ " DEFAULT VALUES"
  | insert names =>
    "INSERT INTO " ++ name ++ " (" ++ ", ".intercalate names ++ ") VALUES (" ++
      ", ".intercalate ((Table.valuePlaces names.length).map (":" ++ ·)) ++ ")"
  | update names key =>
    "UPDATE " ++ name ++ " SET " ++ ", ".intercalate
      (names.zipWith (fun n place => n ++ " = :" ++ place) (Table.valuePlaces names.length)) ++
      " WHERE " ++ key ++ " = :key"

end Form

/-! ## Outlines -/

/-- The column of an ordering clause, and its direction in upper case. -/
def clauseOutline (clause : Value) : Result (Value × String) := do
  let (column, direction) ← orderParts clause
  return (column, Text.upper (← direction.text?))

/-- The whole number that a given value denotes. -/
def numberOutline (given : Bool) (v : Value) : Result (Option Int) :=
  if given then do return some (← v.whole?) else .ok none

/-- What of a command may get into the text of its statement: columns with their comparisons, columns
with directions in upper case, the whole numbers for limit and offset where there are such, the
names of fields. Operands, the values of fields and the key that is looked for are not among it. -/
def Command.outline (keyColumn : Value) : Command → Result (Form Value String)
  | .select conditions order limit offset => do
    let order ← order.mapM clauseOutline
    let limit ← numberOutline (!limit.isNull) limit
    let offset ← numberOutline offset.truthy offset
    return .select (conditions.map fun c => (c.column, c.comparison)) order limit offset
  | .count conditions => .ok (.count (conditions.map fun c => (c.column, c.comparison)))
  | .selectByKey => .ok (.selectByKey keyColumn)
  | .insert fields => .ok (.insert (Entries.keys fields))
  | .update _ fields => .ok (.update (Entries.keys fields) keyColumn)

/-! ## The parts of an accepted command -/

section

variable {t : Table}

theorem comparisonsFrom_of_clauses {start : Nat} {conditions : List Condition}
    {clauses : List Clause} (h : clausesFrom start conditions = .ok clauses)
    (hk : ∀ c ∈ conditions, ∃ column ∈ t.columns, c.column = .text column) :
    ∃ parts : List (String × Comparison),
      conditions.map (fun c => (c.column, c.comparison)) = parts.map (Prod.map .text id) ∧
      (∀ part ∈ parts, part.1 ∈ t.columns) ∧
      clauses.map Clause.text = Form.comparisonsFrom start parts := by
  induction conditions generalizing start clauses with
  | nil =>
    cases h
    exact ⟨[], rfl, nofun, rfl⟩
  | cons c conditions ih =>
    obtain ⟨clause, hclause, h⟩ := Result.bind_eq_ok.mp h
    obtain ⟨rest, hrest, h⟩ := Result.bind_eq_ok.mp h
    cases h
    obtain ⟨parts, hparts, hmem, htext⟩ := ih hrest fun c hc => hk c (List.mem_cons_of_mem _ hc)
    obtain ⟨column, hcolumn, hname⟩ := hk c List.mem_cons_self
    obtain ⟨values, _, rfl⟩ := Clause.eq_of_ofCondition hclause hname
    refine ⟨(column, c.comparison) :: parts, ?_, ?_, ?_⟩
    · rw [List.map_cons, List.map_cons, hparts, hname]
      rfl
    · intro part hpart
      rcases List.mem_cons.mp hpart with rfl | hpart
      · exact hcolumn
      · exact hmem part hpart
    · rw [List.map_cons, htext]
      rfl

theorem whereClause_parts {conditions : List Condition} {w : Statement}
    (h : t.whereClause conditions = .ok w) :
    ∃ parts : List (String × Comparison),
      conditions.map (fun c => (c.column, c.comparison)) = parts.map (Prod.map .text id) ∧
      (∀ part ∈ parts, part.1 ∈ t.columns) ∧ w.sql = Form.conditionText parts := by
  rw [Table.whereClause_eq] at h
  obtain ⟨columns, hcolumns, h⟩ := Result.bind_eq_ok.mp h
  obtain ⟨clauses, hclauses, h⟩ := Result.bind_eq_ok.mp h
  cases h
  have hk : ∀ c ∈ conditions, ∃ column ∈ t.columns, c.column = .text column := by
    intro c hc
    obtain ⟨column, _, hcolumn⟩ := Result.exists_of_mem_left (Result.mapM_eq_ok.mp hcolumns) hc
    obtain ⟨hname, hmem⟩ := Table.column_eq_ok.mp hcolumn
    exact ⟨column, hmem, hname⟩
  obtain ⟨parts, hparts, hmem, htext⟩ := comparisonsFrom_of_clauses hclauses hk
  refine ⟨parts, hparts, hmem, ?_⟩
  rw [Form.conditionText, ← htext]
  rfl

theorem Direction.ofWord?_eq_some {s : String} {d : Direction} :
    ofWord? s = some d ↔ s = d.word := by
  unfold ofWord?
  cases d <;> simp only [word] <;> split <;> simp_all

theorem Direction.ofValue_eq_ok {v : Value} {d : Direction} :
    ofValue v = .ok d ↔ ∃ given, v.text? = .ok given ∧ Text.upper given = d.word := by
  unfold ofValue
  rw [Result.bind_eq_ok]
  refine exists_congr fun given => and_congr_right fun _ => ?_
  rw [← Direction.ofWord?_eq_some]
  cases ofWord? (Text.upper given) with
  | none => simp
  | some d' => simp [pure, Except.pure]

/-- The text of one ordering clause. -/
def orderPart (t : Table) (clause : Value) : Result String := do
  let (column, direction) ← orderParts clause
  let d ← Direction.ofValue direction
  return (← t.column column) ++ " " ++ d.word

theorem orderClause_eq (t : Table) (order : List Value) :
    t.orderClause order = do return ", ".intercalate (← order.mapM (orderPart t)) := rfl

theorem orderPart_eq_ok {clause : Value} {text : String} (h : orderPart t clause = .ok text) :
    ∃ part : String × Direction, clauseOutline clause = .ok (.text part.1, part.2.word) ∧
      part.1 ∈ t.columns ∧ text = part.1 ++ " " ++ part.2.word := by
  obtain ⟨⟨column, direction⟩, hpair, h⟩ := Result.bind_eq_ok.mp h
  obtain ⟨d, hd, h⟩ := Result.bind_eq_ok.mp h
  obtain ⟨name, hname, h⟩ := Result.bind_eq_ok.mp h
  cases h
  obtain ⟨rfl, hmem⟩ := Table.column_eq_ok.mp hname
  obtain ⟨given, hgiven, hupper⟩ := Direction.ofValue_eq_ok.mp hd
  refine ⟨(name, d), ?_, hmem, rfl⟩
  unfold clauseOutline
  simp only [hpair, Result.ok_bind, hgiven, hupper]
  rfl

theorem orderPart_mapM {order : List Value} {texts : List String}
    (h : List.Forall₂ (fun clause text => orderPart t clause = .ok text) order texts) :
    ∃ parts : List (String × Direction),
      List.Forall₂ (fun clause part => clauseOutline clause = .ok part) order
        (parts.map (Prod.map .text Direction.word)) ∧
      (∀ part ∈ parts, part.1 ∈ t.columns) ∧
      texts = parts.map fun part => part.1 ++ " " ++ part.2.word := by
  induction h with
  | nil => exact ⟨[], .nil, nofun, rfl⟩
  | cons hclause _ ih =>
    obtain ⟨part, hpart, hmem, rfl⟩ := orderPart_eq_ok hclause
    obtain ⟨parts, hparts, hmems, rfl⟩ := ih
    exact ⟨part :: parts, .cons hpart hparts, List.forall_mem_cons.mpr ⟨hmem, hmems⟩, rfl⟩

theorem orderClause_parts {order : List Value} {sorting : String}
    (h : t.orderClause order = .ok sorting) :
    ∃ parts : List (String × Direction),
      order.mapM clauseOutline = .ok (parts.map (Prod.map .text Direction.word)) ∧
      (∀ part ∈ parts, part.1 ∈ t.columns) ∧ sorting = Form.orderText parts := by
  rw [orderClause_eq] at h
  obtain ⟨texts, htexts, h⟩ := Result.bind_eq_ok.mp h
  cases h
  obtain ⟨parts, hparts, hmem, rfl⟩ := orderPart_mapM (Result.mapM_eq_ok.mp htexts)
  exact ⟨parts, Result.mapM_eq_ok.mpr hparts, hmem, rfl⟩

theorem intText?_eq_ok {n : Int} {s : String} (h : Value.intText? n = .ok s) :
    s = String.ofList (Numeral.write n) := by
  unfold Value.intText? Numeral.write? at h
  split at h
  · rename_i hsome
    split at hsome
    · cases hsome
      exact (Except.ok.inj h).symm
    · cases hsome
  · cases h

theorem numberSuffix_eq_ok {keyword text : String} {given : Bool} {v : Value}
    (h : Table.numberSuffix keyword given v = .ok text) :
    ∃ n, numberOutline given v = .ok n ∧ text = Form.numberText keyword n := by
  unfold Table.numberSuffix at h
  unfold numberOutline
  cases given with
  | false =>
    cases h
    exact ⟨none, rfl, rfl⟩
  | true =>
    obtain ⟨shown, hshown, h⟩ := Result.bind_eq_ok.mp h
    obtain ⟨n, hn, hshown⟩ := Result.bind_eq_ok.mp hshown
    cases h
    refine ⟨some n, ?_, ?_⟩
    · simp only [↓reduceIte, hn, Result.ok_bind]
      rfl
    · rw [intText?_eq_ok hshown]
      rfl

theorem names_of_columns {keys : List Value} {names : List String}
    (h : List.Forall₂ (fun key name => t.column key = .ok name) keys names) :
    keys = names.map .text ∧ ∀ name ∈ names, name ∈ t.columns := by
  induction h with
  | nil => exact ⟨rfl, nofun⟩
  | cons hname _ ih =>
    obtain ⟨rfl, hmem⟩ := Table.column_eq_ok.mp hname
    obtain ⟨rfl, hmems⟩ := ih
    exact ⟨rfl, List.forall_mem_cons.mpr ⟨hmem, hmems⟩⟩

theorem assignments_eq_ok {fields : Row} {assigned : List String × List (String × Value)}
    (h : t.assignments fields = .ok assigned) :
    Entries.keys fields = assigned.1.map .text ∧ ∀ name ∈ assigned.1, name ∈ t.columns := by
  obtain ⟨names, hnames, h⟩ := Result.bind_eq_ok.mp h
  cases h
  exact names_of_columns (Result.mapM_eq_ok.mp hnames)

/-- The text is written from the outline, which consists of columns of the table and of the words for
the two directions. -/
def Written (t : Table) (outline : Result (Form Value String)) (sql : String) : Prop :=
  ∃ (name : String) (form : Form String Direction), t.name.text? = .ok name ∧
    outline = .ok (form.map .text Direction.word) ∧
    (∀ column ∈ form.columns, column ∈ t.columns) ∧ sql = form.text name t.columns

variable {keyColumn : Value} {statement : Statement}

theorem written_select {conditions : List Condition} {order : List Value} {limit offset : Value}
    (h : t.select conditions order limit offset = .ok statement) :
    Written t (Command.outline keyColumn (.select conditions order limit offset)) statement.sql := by
  obtain ⟨name, hname, h⟩ := Result.bind_eq_ok.mp h
  obtain ⟨w, hw, h⟩ := Result.bind_eq_ok.mp h
  obtain ⟨sorting, hsorting, h⟩ := Result.bind_eq_ok.mp h
  obtain ⟨limitText, hlimit, h⟩ := Result.bind_eq_ok.mp h
  obtain ⟨offsetText, hoffset, h⟩ := Result.bind_eq_ok.mp h
  cases h
  obtain ⟨parts, hparts, hknown, hwhere⟩ := whereClause_parts hw
  obtain ⟨clauses, hclauses, hsorted, rfl⟩ := orderClause_parts hsorting
  obtain ⟨top, htop, rfl⟩ := numberSuffix_eq_ok hlimit
  obtain ⟨first, hfirst, rfl⟩ := numberSuffix_eq_ok hoffset
  refine ⟨name, .select parts clauses top first, hname, ?_, ?_, ?_⟩
  · simp only [Command.outline, hclauses, htop, hfirst, hparts, Result.ok_bind]
    rfl
  · intro column hcolumn
    rcases List.mem_append.mp hcolumn with hcolumn | hcolumn
    · obtain ⟨part, hpart, rfl⟩ := List.mem_map.mp hcolumn
      exact hknown part hpart
    · obtain ⟨part, hpart, rfl⟩ := List.mem_map.mp hcolumn
      exact hsorted part hpart
  · rw [hwhere]
    rfl

theorem written_count {conditions : List Condition} (h : t.count conditions = .ok statement) :
    Written t (Command.outline keyColumn (.count conditions)) statement.sql := by
  obtain ⟨name, hname, h⟩ := Result.bind_eq_ok.mp h
  obtain ⟨w, hw, h⟩ := Result.bind_eq_ok.mp h
  cases h
  obtain ⟨parts, hparts, hknown, hwhere⟩ := whereClause_parts hw
  refine ⟨name, .count parts, hname, ?_, ?_, ?_⟩
  · simp only [Command.outline, hparts]
    rfl
  · intro column hcolumn
    obtain ⟨part, hpart, rfl⟩ := List.mem_map.mp hcolumn
    exact hknown part hpart
  · rw [hwhere]
    rfl

theorem written_selectByKey {sql : String} (h : t.selectByKey keyColumn = .ok sql) :
    Written t (Command.outline keyColumn .selectByKey) sql := by
  obtain ⟨name, hname, h⟩ := Result.bind_eq_ok.mp h
  obtain ⟨key, hkey, h⟩ := Result.bind_eq_ok.mp h
  cases h
  obtain ⟨rfl, hmem⟩ := Table.column_eq_ok.mp hkey
  exact ⟨name, .selectByKey key, hname, rfl, List.forall_mem_singleton.mpr hmem, rfl⟩

theorem written_insert {fields : Row} (h : t.insert fields = .ok statement) :
    Written t (Command.outline keyColumn (.insert fields)) statement.sql := by
  obtain ⟨⟨names, params⟩, hassigned, h⟩ := Result.bind_eq_ok.mp h
  obtain ⟨name, hname, h⟩ := Result.bind_eq_ok.mp h
  obtain ⟨hnames, hknown⟩ := assignments_eq_ok hassigned
  refine ⟨name, .insert names, hname, ?_, hknown, ?_⟩
  · simp only [Command.outline, hnames]
    rfl
  · cases names <;> cases h <;> rfl

theorem written_update {key : Value} {fields : Row}
    (h : t.update keyColumn key fields = .ok statement) :
    Written t (Command.outline keyColumn (.update key fields)) statement.sql := by
  obtain ⟨⟨names, params⟩, hassigned, h⟩ := Result.bind_eq_ok.mp h
  obtain ⟨name, hname, h⟩ := Result.bind_eq_ok.mp h
  obtain ⟨hnames, hknown⟩ := assignments_eq_ok hassigned
  cases names with
  | nil => cases h
  | cons first names =>
    obtain ⟨column, hcolumn, h⟩ := Result.bind_eq_ok.mp h
    cases h
    obtain ⟨rfl, hmem⟩ := Table.column_eq_ok.mp hcolumn
    refine ⟨name, .update (first :: names) column, hname, ?_, ?_, rfl⟩
    · simp only [Command.outline, hnames]
      rfl
    · exact List.forall_mem_append.mpr ⟨hknown, List.forall_mem_singleton.mpr hmem⟩

/-- An accepted command has its text written from its outline. -/
theorem written_of_make {command : Command} {sql : String}
    (h : t.make keyColumn command = .ok sql) : Written t (command.outline keyColumn) sql := by
  cases command with
  | select conditions order limit offset =>
    obtain ⟨statement, hs, h⟩ := Result.bind_eq_ok.mp h
    cases h
    exact written_select hs
  | count conditions =>
    obtain ⟨statement, hs, h⟩ := Result.bind_eq_ok.mp h
    cases h
    exact written_count hs
  | selectByKey => exact written_selectByKey h
  | insert fields =>
    obtain ⟨statement, hs, h⟩ := Result.bind_eq_ok.mp h
    cases h
    exact written_insert hs
  | update key fields =>
    obtain ⟨statement, hs, h⟩ := Result.bind_eq_ok.mp h
    cases h
    exact written_update hs

theorem Direction.word_injective : Function.Injective Direction.word := by
  intro a b h
  cases a <;> cases b <;> simp_all [Direction.word]

/-- One outline, one text. -/
theorem Written.unique {outline : Result (Form Value String)} {sql sql' : String}
    (h : Written t outline sql) (h' : Written t outline sql') : sql = sql' := by
  obtain ⟨name, form, hname, hform, _, rfl⟩ := h
  obtain ⟨name', form', hname', hform', _, rfl⟩ := h'
  have htext : Function.Injective Value.text := fun _ _ => Value.text.inj
  obtain rfl : name = name' := Except.ok.inj (hname.symm.trans hname')
  have hmap := Except.ok.inj (hform.symm.trans hform')
  rw [Form.map_injective htext Direction.word_injective hmap]

end

end Sql

end EntityApi
