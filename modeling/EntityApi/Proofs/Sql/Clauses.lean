import EntityApi.Proofs.Results
import EntityApi.Sql.Statement

/-! # From conditions to clauses

A condition becomes a clause if its column is one of the table's and its
comparison is one that statements have. These are the conditions under which that
succeeds, and what comes out (`Clause.ofCondition_eq_ok`, `Table.whereClause_eq`). -/
namespace EntityApi

/-- The comparison is one that there is a clause for. -/
def Comparison.Known (c : Comparison) : Prop := ∀ name, c ≠ unknown name

namespace Sql

namespace Table

variable {t : Table}

theorem column_eq_ok {name : Value} {c : String} :
    t.column name = .ok c ↔ name = .text c ∧ c ∈ t.columns := by
  unfold column
  cases hfind : t.columns.find? fun c => Value.text c == name with
  | some found =>
    have hbeq : (Value.text found == name) = true := by simpa using List.find?_some hfind
    have hname : Value.text found = name := Value.text_beq_iff.mp hbeq
    have hmem := List.mem_of_find?_eq_some hfind
    subst hname
    constructor
    · intro h
      cases h
      exact ⟨rfl, hmem⟩
    · rintro ⟨heq, _⟩
      cases heq
      rfl
  | none =>
    constructor
    · intro h
      obtain ⟨_, _, h⟩ := Result.bind_eq_ok.mp h
      obtain ⟨_, _, h⟩ := Result.bind_eq_ok.mp h
      cases h
    · rintro ⟨rfl, hmem⟩
      have hno := List.find?_eq_none.mp hfind c hmem
      simp at hno

/-- A name that is no column of the table is refused, and the refusal names it. -/
theorem column_of_unknown {name : Value} {shown table : String}
    (h : ∀ c ∈ t.columns, name ≠ .text c) (hn : name.text? = .ok shown)
    (ht : t.name.text? = .ok table) :
    t.column name = .error (.invalidArgument (.unknownColumn shown table)) := by
  have hfind : (t.columns.find? fun c => Value.text c == name) = none := by
    rw [List.find?_eq_none]
    intro c hc hbeq
    exact h c hc (Value.text_beq_iff.mp hbeq).symm
  unfold column
  rw [hfind, hn, ht]
  rfl

/-- A record can be looked for in a column of the table. -/
theorem selectByKey_of_mem {name c : String} (hn : t.name.text? = .ok name) (hc : c ∈ t.columns) :
    t.selectByKey (.text c) = .ok ("SELECT " ++ ", ".intercalate t.columns ++ " FROM " ++ name ++
      " WHERE " ++ c ++ " = :key LIMIT 1") := by
  unfold selectByKey
  rw [hn, column_eq_ok.mpr ⟨rfl, hc⟩]
  rfl

/-- No record can be looked for in any other column. -/
theorem selectByKey_of_unknown {name c : String} (hn : t.name.text? = .ok name)
    (hc : c ∉ t.columns) : t.selectByKey (.text c) =
      .error (.invalidArgument (.unknownColumn c name)) := by
  have hcolumn : t.column (.text c) = .error (.invalidArgument (.unknownColumn c name)) :=
    column_of_unknown (fun _ hmem h => hc (Value.text.inj h ▸ hmem)) rfl hn
  unfold selectByKey
  rw [hn, hcolumn]
  rfl

/-- Fields for columns of the table can be assigned. -/
theorem exists_assignments {fields : Row}
    (hf : ∀ name ∈ Entries.keys fields, ∃ c ∈ t.columns, name = .text c) :
    ∃ names params, t.assignments fields = .ok (names, params) := by
  obtain ⟨names, hnames⟩ := Result.exists_mapM.mpr fun name hname =>
    (hf name hname).imp fun _ hc => column_eq_ok.mpr hc.symm
  unfold assignments
  rw [hnames]
  exact ⟨names, _, rfl⟩

end Table

namespace Clause

theorem ofCondition_eq_ok {c : Condition} {place : String} {clause : Clause} :
    ofCondition c place = .ok clause ↔ c.comparison.Known ∧ ∃ column values,
      c.column.text? = .ok column ∧ operands c = .ok values ∧
        clause = ⟨column, c.comparison, place, (binds c.comparison place).zip values⟩ := by
  unfold ofCondition Comparison.Known
  cases hc : c.comparison with
  | unknown name =>
    constructor
    · intro h
      change (if name.isKey then _ else _) = _ at h
      by_cases hkey : name.isKey
      · rw [if_pos hkey] at h
        obtain ⟨_, _, h⟩ := Result.bind_eq_ok.mp h
        cases h
      · rw [if_neg hkey] at h
        cases h
    · rintro ⟨hk, _⟩
      exact absurd rfl (hk name)
  | _ =>
    constructor
    · intro h
      obtain ⟨column, hcolumn, h⟩ := Result.bind_eq_ok.mp h
      obtain ⟨values, hvalues, h⟩ := Result.bind_eq_ok.mp h
      cases h
      exact ⟨nofun, column, values, hcolumn, hvalues, rfl⟩
    · rintro ⟨_, column, values, hcolumn, hvalues, rfl⟩
      rw [hcolumn, Result.ok_bind, hvalues]
      rfl

/-- The clause of a condition on a named column. -/
theorem eq_of_ofCondition {c : Condition} {column place : String} {clause : Clause}
    (h : ofCondition c place = .ok clause) (hname : c.column = .text column) :
    ∃ values, operands c = .ok values ∧
      clause = ⟨column, c.comparison, place, (binds c.comparison place).zip values⟩ := by
  obtain ⟨_, shown, values, hshown, hoperands, rfl⟩ := ofCondition_eq_ok.mp h
  rw [hname, Value.text?_text] at hshown
  cases hshown
  exact ⟨values, hoperands, rfl⟩

end Clause

/-- The placeholder of the condition at a position. -/
def placeAt (i : Nat) : String := "p_" ++ toString i

/-- Clauses are made from the conditions one by one, each with the placeholder of its position. -/
theorem clausesFrom_eq_ok {start : Nat} {conditions : List Condition} {clauses : List Clause} :
    clausesFrom start conditions = .ok clauses ↔ List.Forall₂
      (fun (c : Condition × Nat) clause => Clause.ofCondition c.1 (placeAt c.2) = .ok clause)
      (conditions.zipIdx start) clauses := by
  induction conditions generalizing start clauses with
  | nil => cases clauses <;> simp [clausesFrom]
  | cons c conditions ih =>
    unfold clausesFrom
    rw [List.zipIdx_cons]
    constructor
    · intro h
      obtain ⟨clause, hclause, h⟩ := Result.bind_eq_ok.mp h
      obtain ⟨rest, hrest, h⟩ := Result.bind_eq_ok.mp h
      cases h
      exact .cons hclause (ih.mp hrest)
    · intro h
      cases h with
      | cons hclause hrest =>
        change Clause.ofCondition c ("p_" ++ toString start) = _ at hclause
        rw [hclause, Result.ok_bind, ih.mpr hrest]
        rfl

/-- Each clause comes from its condition. -/
theorem clauses_of_clausesFrom {start : Nat} {conditions : List Condition} {clauses : List Clause}
    (h : clausesFrom start conditions = .ok clauses) : List.Forall₂
      (fun c clause => ∃ i, Clause.ofCondition c (placeAt i) = .ok clause) conditions clauses := by
  rw [← List.zipIdx_map_fst start conditions, List.forall₂_map_left_iff]
  exact (clausesFrom_eq_ok.mp h).imp fun c clause hclause => ⟨c.2, hclause⟩

/-- Conditions with known comparisons have clauses, once their columns are texts. -/
theorem clausesFrom_isOk (start : Nat) {conditions : List Condition}
    (hk : ∀ c ∈ conditions, c.comparison.Known)
    (hv : ∀ c ∈ conditions, ∃ values, Clause.operands c = .ok values)
    (hc : ∀ c ∈ conditions, ∃ column, c.column.text? = .ok column) :
    ∃ clauses, clausesFrom start conditions = .ok clauses := by
  induction conditions generalizing start with
  | nil => exact ⟨[], rfl⟩
  | cons c conditions ih =>
    obtain ⟨hk, hks⟩ := List.forall_mem_cons.mp hk
    obtain ⟨⟨values, hv⟩, hvs⟩ := List.forall_mem_cons.mp hv
    obtain ⟨⟨column, hc⟩, hcs⟩ := List.forall_mem_cons.mp hc
    obtain ⟨rest, hrest⟩ := ih (start + 1) hks hvs hcs
    have hclause : Clause.ofCondition c (placeAt start) = .ok _ :=
      Clause.ofCondition_eq_ok.mpr ⟨hk, column, values, hc, hv, rfl⟩
    exact ⟨_, Result.bind_eq_ok.mpr ⟨_, hclause, Result.bind_eq_ok.mpr ⟨rest, hrest, rfl⟩⟩⟩

namespace Table

/-- The columns of all conditions are looked at before any clause is made. -/
theorem whereClause_eq (t : Table) (conditions : List Condition) :
    t.whereClause conditions =
      (conditions.mapM fun c => t.column c.column) >>= fun _ => whereOf conditions := by
  have hcheck : ∀ rest : List Condition,
      (forIn rest PUnit.unit fun c _ => do
        let _ ← t.column c.column
        pure (ForInStep.yield PUnit.unit) : Result PUnit) =
      (rest.mapM fun c => t.column c.column) >>= fun _ => pure PUnit.unit := by
    intro rest
    induction rest with
    | nil => rfl
    | cons c rest ih =>
      rw [List.forIn_cons, List.mapM_cons]
      cases t.column c.column with
      | error e => rfl
      | ok column =>
        simp only [Result.ok_bind, pure_bind, ih, bind_assoc]
  unfold whereClause
  rw [hcheck, bind_assoc]
  simp only [pure_bind]

/-- Conditions on columns of the table become the conjunction of their clauses. -/
theorem whereClause_eq_ok {t : Table} {conditions : List Condition} {clauses : List Clause}
    (hcolumns : ∀ c ∈ conditions, ∃ column ∈ t.columns, c.column = .text column)
    (hclauses : clausesFrom 0 conditions = .ok clauses) :
    t.whereClause conditions = .ok (conjunction clauses) := by
  have hchecked : ∃ names, (conditions.mapM fun c => t.column c.column) = .ok names := by
    clear hclauses
    induction conditions with
    | nil => exact ⟨[], rfl⟩
    | cons c conditions ih =>
      obtain ⟨⟨column, hmem, hname⟩, hrest⟩ := List.forall_mem_cons.mp hcolumns
      obtain ⟨names, hnames⟩ := ih hrest
      exact ⟨column :: names, Result.mapM_eq_ok.mpr
        (.cons (column_eq_ok.mpr ⟨hname, hmem⟩) (Result.mapM_eq_ok.mp hnames))⟩
  obtain ⟨names, hnames⟩ := hchecked
  rw [whereClause_eq, hnames, Result.ok_bind]
  exact Result.bind_eq_ok.mpr ⟨clauses, hclauses, rfl⟩

end Table

end Sql

end EntityApi
