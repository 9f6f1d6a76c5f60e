import EntityApi.Proofs.Filter.Compiled
import EntityApi.Proofs.Sql.Engine
import EntityApi.Proofs.Sql.Placeholders

/-! # Filtering in a database and in memory

A compiled condition can be asked of a database, as a clause with placeholders, or of a
record in memory. On a record whose value is missing or of the kind that the condition
asks about, the two agree for one condition (`selects_iff_holds`), and so for any number of
them (`database_filters_as_memory`). -/
namespace EntityApi

namespace Sql

/-! ## Placeholders are names -/

theorem isName_placeAt (i : Nat) : IsName (placeAt i) :=
  IsName.append (by simp [IsName]) (isName_toString i)

/-! ## One condition -/

/-- The test that a clause asks for. -/
def Clause.test (clause : Clause) : Test :=
  match clause.comparison with
  | .like => .like clause.column clause.place
  | .between => .between clause.column (clause.place ++ "_lo") (clause.place ++ "_hi")
  | _ => .equal clause.column clause.place

theorem Clause.test_column (clause : Clause) : clause.test.column = clause.column := by
  unfold test
  split <;> rfl

theorem Clause.test_text (clause : Clause) : clause.test.text = clause.text := by
  obtain ⟨column, comparison, place, params⟩ := clause
  cases comparison with
  | between =>
    have hlow : "_lo AND :" = "_lo" ++ " AND :" := by decide
    simp only [test, Test.text, text, hlow, String.append_assoc]
  | _ => rfl

theorem Clause.test_over {clause : Clause} {columns : List String} (h : clause.column ∈ columns)
    {i : Nat} (hplace : clause.place = placeAt i) : clause.test.Over columns := by
  refine ⟨clause.test_column.symm ▸ h, ?_⟩
  unfold test
  rw [hplace]
  split
  · exact List.forall_mem_singleton.mpr (isName_placeAt i)
  · exact List.forall_mem_cons.mpr ⟨(isName_placeAt i).append (by simp [IsName]),
      List.forall_mem_singleton.mpr ((isName_placeAt i).append (by simp [IsName]))⟩
  · exact List.forall_mem_singleton.mpr (isName_placeAt i)

section

variable {e : Engine} {columns : List String} (standard : e.Standard columns)
  {row : Row} {params : List (String × Value)} {clause : Clause} {i : Nat}

include standard

/-- A condition is decided on a record, and the database selects the record for the clause of the
condition just if the condition holds. -/
theorem selects_iff_holds {c : Condition} (hcompiled : Filter.Compiled c)
    (hcolumn : ∃ column ∈ columns, c.column = .text column)
    (hclause : Clause.ofCondition c (placeAt i) = .ok clause)
    (hbound : ∀ binding ∈ clause.params, Entries.get? params binding.1 = some binding.2)
    (hvalue : Value.lookup row c.column = .null ∨ c.Suits (Value.lookup row c.column)) :
    clause.test.Over columns ∧ ∃ answer, c.holds row = .ok answer ∧
      (e.selects clause.test.text params row ↔ answer = true) := by
  obtain ⟨column, hmem, hname⟩ := hcolumn
  obtain ⟨values, hvalues, hshape⟩ := Clause.eq_of_ofCondition hclause hname
  have hover : clause.test.Over columns :=
    Clause.test_over (by rw [hshape]; exact hmem) (by rw [hshape])
  refine ⟨hover, ?_⟩
  subst hshape
  obtain ⟨_, comparison, operand⟩ := c
  cases hname
  rcases hvalue with hnull | hsuits
  · refine ⟨false, Condition.holds_of_null hnull, ?_⟩
    refine iff_of_false (standard.null _ hover params row ?_) Bool.false_ne_true
    rw [Clause.test_column]
    exact hnull
  · cases hcompiled with
    | number _ n =>
      cases hvalues
      obtain ⟨a, ha⟩ := hsuits
      have hplace := hbound (placeAt i, .int n) List.mem_cons_self
      refine ⟨a == n, Condition.holds_number ha, ?_⟩
      rw [beq_iff_eq]
      exact standard.equalNumbers column _ hover params row a n ha hplace
    | text _ wanted =>
      cases hvalues
      obtain ⟨s, hs⟩ := hsuits
      have hplace := hbound (placeAt i, .text wanted) List.mem_cons_self
      refine ⟨s == wanted, Condition.holds_text hs, ?_⟩
      rw [beq_iff_eq]
      exact standard.equalTexts column _ hover params row s wanted hs hplace
    | part _ part =>
      cases hvalues
      obtain ⟨s, hs⟩ := hsuits
      have hplace := hbound (placeAt i, .text (Filter.containing part)) List.mem_cons_self
      refine ⟨_, Condition.holds_part hs, ?_⟩
      rw [decide_eq_true_iff, ← Like.matches_containing]
      exact standard.like column _ hover params row s _ hs hplace (Like.proper_containing part)
    | range _ hlow hhigh =>
      rename_i low high
      cases hvalues
      obtain ⟨m, hm⟩ := hsuits
      have hl := hbound (placeAt i ++ "_lo", .moment low) List.mem_cons_self
      have hh := hbound (placeAt i ++ "_hi", .moment high) (List.mem_cons_of_mem _ List.mem_cons_self)
      refine ⟨_, Condition.holds_range hlow hhigh hm, ?_⟩
      rw [decide_eq_true_iff]
      exact standard.between column _ _ hover params row m low high hm hl hh

end

/-! ## Any number of conditions -/

theorem compiled_known {c : Condition} (h : Filter.Compiled c) : c.comparison.Known := by
  cases h <;> exact nofun

theorem compiled_operands {c : Condition} (h : Filter.Compiled c) :
    ∃ values, Clause.operands c = .ok values := by
  cases h <;> exact ⟨_, rfl⟩

theorem sql_conjunction (clauses : List Clause) :
    (conjunction clauses).sql = textOf (clauses.map Clause.test) := by
  have htext : Clause.text = fun clause => clause.test.text :=
    funext fun clause => clause.test_text.symm
  unfold conjunction textOf
  rw [List.map_map, htext]
  rfl

/-- **A database filters as memory does.** Take conditions that descriptors compile to, none of which
asks for a number with a fraction, on columns of a table, and a record in which each of these columns
is null, missing or of the kind that the condition asks about. The conditions have a clause, each is
decided on the record, and a database selects the record for the clause just if all of them hold. -/
theorem database_filters_as_memory {e : Engine} {t : Table} (standard : e.Standard t.columns)
    {options : Value} {conditions : List Condition}
    (hcompile : Filter.compile options = .ok conditions)
    (htags : ∀ spec ∈ Filter.descriptors options, Filter.tagOf spec ≠ .text "Float")
    (hcolumns : ∀ c ∈ conditions, ∃ column ∈ t.columns, c.column = .text column) {row : Row}
    (hvalues : ∀ c ∈ conditions,
      Value.lookup row c.column = .null ∨ c.Suits (Value.lookup row c.column)) :
    ∃ w, t.whereClause conditions = .ok w ∧
      (∀ c ∈ conditions, ∃ answer, c.holds row = .ok answer) ∧
      (e.selects w.sql w.params row ↔ ∀ c ∈ conditions, c.holds row = .ok true) := by
  have hcompiled := Filter.compiled_of_compile hcompile htags
  have hshown : ∀ c ∈ conditions, ∃ column, c.column.text? = .ok column := by
    intro c hc
    obtain ⟨column, _, hname⟩ := hcolumns c hc
    exact ⟨column, hname ▸ rfl⟩
  obtain ⟨clauses, hclauses⟩ := clausesFrom_isOk 0 (fun c hc => compiled_known (hcompiled c hc))
    (fun c hc => compiled_operands (hcompiled c hc)) hshown
  have hpairs := clauses_of_clausesFrom hclauses
  -- what the engine makes of a clause, for the condition that it comes from
  have hone : ∀ c ∈ conditions, ∀ clause ∈ clauses,
      (∃ i, Clause.ofCondition c (placeAt i) = .ok clause) → clause.test.Over t.columns ∧
        ∃ answer, c.holds row = .ok answer ∧
          (e.selects clause.test.text (conjunction clauses).params row ↔ answer = true) := by
    rintro c hc clause hclause ⟨i, hof⟩
    exact selects_iff_holds standard (hcompiled c hc) (hcolumns c hc) hof
      (fun binding hbinding => bound_of_mem hclauses hclause hbinding) (hvalues c hc)
  have hover : ∀ clause ∈ clauses, clause.test.Over t.columns := by
    intro clause hclause
    obtain ⟨c, hc, hof⟩ := Result.exists_of_mem_right hpairs hclause
    exact (hone c hc clause hclause hof).1
  refine ⟨conjunction clauses, Table.whereClause_eq_ok hcolumns hclauses, ?_, ?_⟩
  · intro c hc
    obtain ⟨clause, hclause, hof⟩ := Result.exists_of_mem_left hpairs hc
    obtain ⟨_, answer, hanswer, _⟩ := hone c hc clause hclause hof
    exact ⟨answer, hanswer⟩
  · rw [sql_conjunction, standard.selects_textOf (List.forall_mem_map.mpr hover),
      List.forall_mem_map]
    constructor
    · intro hselected c hc
      obtain ⟨clause, hclause, hof⟩ := Result.exists_of_mem_left hpairs hc
      obtain ⟨_, answer, hanswer, hiff⟩ := hone c hc clause hclause hof
      rw [hanswer, hiff.mp (hselected clause hclause)]
    · intro hholds clause hclause
      obtain ⟨c, hc, hof⟩ := Result.exists_of_mem_right hpairs hclause
      obtain ⟨_, answer, hanswer, hiff⟩ := hone c hc clause hclause hof
      exact hiff.mpr (Except.ok.inj (hanswer.symm.trans (hholds c hc)))

/-- An engine that reads texts selects the records of users as memory does: by number, part of the
name, day of birth and e-mail address. -/
theorem database_filters_as_memory_of_users :
    let users : Table := ⟨.text "users", ["id", "name", "born", "email"]⟩
    let descriptor (type column value : String) : Value := .map [(.text "value_type", .text type),
      (.text "column_name", .text column), (.text "value", .text value)]
    let options : Value := .list [descriptor "Int" "id" " 7 ", descriptor "String" "name" "%a_",
      descriptor "Date" "born" "0,86399999", descriptor "Other" "email" "a@b"]
    let row (name : Value) : Row := [(.text "id", .int 7), (.text "name", name),
      (.text "born", .moment ⟨5000, none, by decide⟩), (.text "email", .text "a@b")]
    ∃ conditions w, Filter.compile options = .ok conditions ∧ users.whereClause conditions = .ok w ∧
      (Engine.reading users.columns).selects w.sql w.params (row (.text "100%a_b")) ∧
      ¬ (Engine.reading users.columns).selects w.sql w.params (row (.text "100%A_b")) ∧
      ¬ (Engine.reading users.columns).selects w.sql w.params (row .null) := by
  intro users descriptor options row
  let conditions : List Condition := [⟨.text "id", .equal, .int 7⟩,
    ⟨.text "name", .like, .text (Filter.containing "%a_")⟩,
    ⟨.text "born", .between, .list [.moment ⟨0, some .utc, by decide⟩,
      .moment ⟨86399999000, some .utc, by decide⟩]⟩,
    ⟨.text "email", .equal, .text "a@b"⟩]
  have hcompile : Filter.compile options = .ok conditions := by with_unfolding_all rfl
  have hcolumns : ∀ c ∈ conditions, ∃ column ∈ users.columns, c.column = .text column := by
    simp [conditions, users]
  have hnames : ∀ column ∈ users.columns, IsName column := by
    simp [users, IsName]
  have htags : ∀ spec ∈ Filter.descriptors options, Filter.tagOf spec ≠ .text "Float" := by
    simp [Filter.descriptors, options, descriptor, Filter.tagOf, Value.truthy, Value.items?,
      Value.field, Value.lookup, Entries.get?]
  have hsuits : ∀ name, (name = .null ∨ ∃ s, name = .text s) → ∀ c ∈ conditions,
      Value.lookup (row name) c.column = .null ∨ c.Suits (Value.lookup (row name) c.column) := by
    rintro name (rfl | ⟨s, rfl⟩) <;>
      simp [conditions, row, Value.lookup, Entries.get?, Condition.Suits, Value.index?]
  have hagree := fun name hname => database_filters_as_memory (Engine.standard_reading hnames)
    hcompile htags hcolumns (hsuits name hname)
  obtain ⟨w, hw, _, hselected⟩ := hagree (.text "100%a_b") (.inr ⟨_, rfl⟩)
  obtain ⟨w', hw', _, hother⟩ := hagree (.text "100%A_b") (.inr ⟨_, rfl⟩)
  obtain ⟨w'', hw'', _, hnull⟩ := hagree .null (.inl rfl)
  obtain rfl := Except.ok.inj (hw.symm.trans hw')
  obtain rfl := Except.ok.inj (hw.symm.trans hw'')
  have hname : ∀ name, Value.field (row name) "name" = name := fun name => by
    simp [row, Value.field, Value.lookup, Entries.get?]
  refine ⟨conditions, w, hcompile, hw, hselected.mpr ?_, fun h => ?_, fun h => ?_⟩
  · refine List.forall_mem_cons.mpr ⟨by decide +kernel, List.forall_mem_cons.mpr ⟨?_, ?_⟩⟩
    · rw [Condition.holds_part (hname _)]
      decide
    · simp only [row]
      decide +kernel
  · have hpart := hother.mp h _ (List.mem_cons_of_mem _ List.mem_cons_self)
    rw [Condition.holds_part (hname _)] at hpart
    exact absurd hpart (by decide)
  · have hpart := hnull.mp h _ (List.mem_cons_of_mem _ List.mem_cons_self)
    rw [Condition.holds_of_null (hname _)] at hpart
    cases hpart

end Sql

end EntityApi
