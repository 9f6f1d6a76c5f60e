import EntityApi.Proofs.Sql.Filtering
import EntityApi.Proofs.Sql.Refusals
import EntityApi.Proofs.Sql.Signs
import EntityApi.Proofs.Sql.Texts

/-! # Values in their places

Conditions become clauses with numbered placeholders, and the fields of a record
become a list of placeholders or of assignments to them; an update has one more for
the key. Each statement that is made of these is closed, and reads with its values as
it was asked for: every condition with its own operand (`Asks`), every field with its
own value, and the key where it is compared (`statements_closed`). -/
namespace EntityApi

namespace Sql

open Sign (said listed led Cut)

/-! ## Readings of statements -/

section

variable {β γ : Type}

/-- The signs of a query for records. -/
def selectSigns (table : String) (columns : List String) (tests : List (List (Sign β)))
    (order : List (String × Direction)) (top first : Option Int) : List (Sign β) :=
  said "SELECT " ++ (listed ", " (columns.map fun c => [.name c]) ++ (said " FROM " ++
    (.name table :: (led " WHERE " (listed " AND " tests) ++
      (led " ORDER BY " (listed ", " (order.map fun part =>
        .name part.1 :: said (" " ++ part.2.word))) ++
      (said (Form.numberText "LIMIT" top) ++ said (Form.numberText "OFFSET" first)))))))

def countSigns (table : String) (tests : List (List (Sign β))) : List (Sign β) :=
  said "SELECT COUNT(*) FROM " ++ (.name table :: led " WHERE " (listed " AND " tests))

def insertSigns (table : String) (fields : List (String × β)) : List (Sign β) :=
  said "INSERT INTO " ++ .name table ::
    if fields.isEmpty then said " DEFAULT VALUES"
    else said " (" ++ (listed ", " (fields.map fun field => [.name field.1]) ++
      (said ") VALUES (" ++ (listed ", " (fields.map fun field => [.place field.2]) ++ said ")")))

def updateSigns (table : String) (fields : List (String × β)) (keyColumn : String) (key : β) :
    List (Sign β) :=
  said "UPDATE " ++ (.name table :: (said " SET " ++ (listed ", " (fields.map fun field =>
    .name field.1 :: (said " = " ++ [.place field.2])) ++ (said " WHERE " ++ (.name keyColumn ::
      (said " = " ++ [.place key]))))))

variable (f : β → γ)

theorem map_selectSigns (table : String) (columns : List String) (tests : List (List (Sign β)))
    (order : List (String × Direction)) (top first : Option Int) :
    (selectSigns table columns tests order top first).map (Sign.map f) =
      selectSigns table columns (tests.map (List.map (Sign.map f))) order top first := by
  simp [selectSigns, Sign.map, Function.comp_def]

theorem map_countSigns (table : String) (tests : List (List (Sign β))) :
    (countSigns table tests).map (Sign.map f) =
      countSigns table (tests.map (List.map (Sign.map f))) := by
  simp [countSigns, Sign.map]

theorem map_insertSigns (table : String) (fields : List (String × β)) :
    (insertSigns table fields).map (Sign.map f) =
      insertSigns table (fields.map (Prod.map id f)) := by
  cases fields <;> simp [insertSigns, Sign.map, Function.comp_def]

theorem map_updateSigns (table : String) (fields : List (String × β)) (keyColumn : String)
    (key : β) : (updateSigns table fields keyColumn key).map (Sign.map f) =
      updateSigns table (fields.map (Prod.map id f)) keyColumn (f key) := by
  simp [updateSigns, Sign.map, Function.comp_def]

end

/-! ## Conditions -/

/-- The comparison is one that statements have; a range has two bounds. -/
def Bindable (c : Condition) : Prop :=
  c.comparison = .equal ∨ c.comparison = .like ∨
    c.comparison = .between ∧ ∃ low high, c.operand.items? = some [low, high]

/-- How a condition reads in a statement. -/
inductive Asks : Condition → List (Sign Value) → Prop where
  | equal {name operand : Value} {column : String} (h : name.text? = .ok column) :
      Asks ⟨name, .equal, operand⟩ (.name column :: (said " = " ++ [.place operand]))
  | like {name operand : Value} {column : String} (h : name.text? = .ok column) :
      Asks ⟨name, .like, operand⟩
        (.name column :: (said " LIKE " ++ .place operand :: said " ESCAPE '!'"))
  | between {name operand low high : Value} {column : String} (h : name.text? = .ok column)
      (hbounds : operand.items? = some [low, high]) :
      Asks ⟨name, .between, operand⟩
        (.name column :: (said " BETWEEN " ++ .place low :: (said " AND " ++ [.place high])))

theorem Bindable.known {c : Condition} (h : Bindable c) : c.comparison.Known := by
  rcases h with h | h | ⟨h, _⟩ <;> exact h ▸ nofun

theorem Bindable.operands {c : Condition} (h : Bindable c) :
    ∃ values, Clause.operands c = .ok values := by
  unfold Clause.operands
  rcases h with h | h | ⟨h, low, high, hbounds⟩
  · exact ⟨_, by rw [h]⟩
  · exact ⟨_, by rw [h]⟩
  · exact ⟨[low, high], by rw [h]; simp only [hbounds]⟩

/-- A clause cut into signs. -/
def Clause.signs (c : Clause) : List (Sign (String × Value)) :=
  match c.comparison, c.params with
  | .equal, [value] => .name c.column :: (said " = " ++ [.place value])
  | .like, [value] => .name c.column :: (said " LIKE " ++ .place value :: said " ESCAPE '!'")
  | .between, [low, high] =>
    .name c.column :: (said " BETWEEN " ++ .place low :: (said " AND " ++ [.place high]))
  | _, _ => []

/-- A clause has its text and its parameters, and reads as its condition. -/
theorem Clause.cut_signs {c : Condition} (hc : Bindable c) {i : Nat} {clause : Clause}
    (h : Clause.ofCondition c (placeAt i) = .ok clause) :
    Cut clause.text clause.params clause.signs ∧ Sign.char ' ' ∈ clause.signs ∧
      Asks c (clause.signs.map (Sign.map Prod.snd)) := by
  obtain ⟨_, column, values, hcolumn, hvalues, rfl⟩ := Clause.ofCondition_eq_ok.mp h
  obtain ⟨name, comparison, operand⟩ := c
  have hname := isName_placeAt i
  rcases hc with rfl | rfl | ⟨rfl, low, high, hbounds⟩
  case inl =>
    cases hvalues
    have hcut := (Cut.name column).append ((Cut.said " = " (by decide)).append
      (Cut.place hname operand))
    refine ⟨hcut.of_eq ?_ rfl, by simp [signs, binds, said], ?_⟩
    · simp [text, ← String.toList_inj]
    · simpa [signs, binds, Sign.map] using Asks.equal hcolumn
  case inr.inl =>
    cases hvalues
    have hcut := (Cut.name column).append ((Cut.said " LIKE " (by decide)).append
      ((Cut.place hname operand).append (Cut.said " ESCAPE '!'" (by decide))))
    refine ⟨hcut.of_eq ?_ rfl, by simp [signs, binds, said], ?_⟩
    · simp [text, ← String.toList_inj]
    · simpa [signs, binds, Sign.map] using Asks.like hcolumn
  case inr.inr =>
    obtain rfl : [low, high] = values := by
      simp only [operands, hbounds] at hvalues
      exact Except.ok.inj hvalues
    have hlow : IsName (placeAt i ++ "_lo") := hname.append (by simp [IsName])
    have hhigh : IsName (placeAt i ++ "_hi") := hname.append (by simp [IsName])
    have hcut := (Cut.name column).append ((Cut.said " BETWEEN " (by decide)).append
      ((Cut.place hlow low).append ((Cut.said " AND " (by decide)).append
        (Cut.place hhigh high))))
    refine ⟨hcut.of_eq ?_ rfl, by simp [signs, binds, said], ?_⟩
    · simp [text, ← String.toList_inj]
    · simpa [signs, binds, Sign.map] using Asks.between hcolumn hbounds

section

variable {conditions : List Condition} (hconditions : ∀ c ∈ conditions, Bindable c)
  {clauses : List Clause} (hclauses : clausesFrom 0 conditions = .ok clauses)

include hconditions hclauses

/-- The clauses of conditions as pieces of a statement, alone and after their keyword. -/
theorem exists_pieces : ∃ pieces : List (List (Sign (String × Value))),
    Cut (conjunction clauses).sql (conjunction clauses).params (listed " AND " pieces) ∧
    Cut (Table.suffix " WHERE " (conjunction clauses).sql) (conjunction clauses).params
      (led " WHERE " (listed " AND " pieces)) ∧
    List.Forall₂ Asks conditions (pieces.map (List.map (Sign.map Prod.snd))) := by
  have hpairs : List.Forall₂ (fun c clause => Cut clause.text clause.params clause.signs ∧
      Sign.char ' ' ∈ clause.signs ∧ Asks c (clause.signs.map (Sign.map Prod.snd)))
      conditions clauses :=
    ((List.forall₂_and_left _ _).mpr ⟨hconditions, clauses_of_clausesFrom hclauses⟩).imp
      fun _ _ ⟨hc, _, hof⟩ => Clause.cut_signs hc hof
  have hcut : Cut (conjunction clauses).sql (conjunction clauses).params
      (listed " AND " (clauses.map Clause.signs)) := by
    refine Cut.listed (by decide) fun clause hclause => ?_
    obtain ⟨_, _, hcut, _⟩ := Result.exists_of_mem_right hpairs hclause
    exact hcut
  refine ⟨clauses.map Clause.signs, hcut, hcut.suffix (by decide) ?_, ?_⟩
  · cases clauses with
    | nil => exact .inl rfl
    | cons clause rest =>
      obtain ⟨_, _, _, hblank, _⟩ := Result.exists_of_mem_right hpairs List.mem_cons_self
      exact .inr ⟨_, Sign.mem_listed_head hblank _ _⟩
  · rw [List.map_map]
    exact List.forall₂_map_right_iff.mpr (hpairs.imp fun _ _ h => h.2.2)

end

/-! ## Order and limits -/

theorem cut_names (names : List String) :
    Cut (", ".intercalate names) [] (listed ", " (names.map fun s => [.name s])) := by
  have h : Cut (", ".intercalate (names.map fun s => s)) [] _ :=
    Cut.listed_plain (by decide) fun s _ => Cut.name s
  rwa [List.map_id'] at h

theorem cut_orderText (order : List (String × Direction)) :
    Cut (Table.suffix " ORDER BY " (Form.orderText order)) [] (led " ORDER BY " (listed ", "
      (order.map fun part => .name part.1 :: said (" " ++ part.2.word)))) := by
  have hparts : Cut (Form.orderText order) [] (listed ", " (order.map fun part =>
      .name part.1 :: said (" " ++ part.2.word))) := by
    refine Cut.listed_plain (by decide) ?_
    rintro ⟨column, direction⟩ _
    have hword : Cut (" " ++ direction.word) [] (said (" " ++ direction.word)) := by
      cases direction <;> exact Cut.said _ (by decide)
    simpa [String.append_assoc] using (Cut.name column).append hword
  refine hparts.suffix (by decide) ?_
  cases order with
  | nil => exact .inl rfl
  | cons part rest =>
    have hblank : Sign.char ' ' ∈ (said (" " ++ part.2.word) : List (Sign (String × Value))) := by
      simp [said]
    exact .inr ⟨_, Sign.mem_listed_head (List.mem_cons_of_mem _ hblank) _ _⟩

theorem cut_numberText {keyword : String} (h : ':' ∉ keyword.toList) (n : Option Int) :
    Cut (Form.numberText keyword n) [] (said (Form.numberText keyword n)) := by
  cases n with
  | none => exact Cut.empty
  | some n =>
    have hcolon : ':' ∉ Numeral.write n := by
      unfold Numeral.write
      rw [List.mem_append]
      rintro (hsign | hdigit)
      · split at hsign <;> simp at hsign
      · exact absurd (Nat.isDigit_of_mem_toDigits (by decide) (by decide) hdigit) (by decide)
    refine Cut.said _ ⟨?_, ?_⟩
    · simp [Form.numberText, h, hcolon]
    · simp [Form.numberText, Sign.isPlaceChar]

/-! ## Fields -/

theorem length_valuePlaces (count : Nat) : (Table.valuePlaces count).length = count := by
  simp [Table.valuePlaces]

theorem isName_of_mem_valuePlaces {count : Nat} {place : String}
    (h : place ∈ Table.valuePlaces count) : IsName place := by
  obtain ⟨i, _, rfl⟩ := List.mem_map.mp h
  exact IsName.append (by simp [IsName]) (isName_toString i)

theorem nodup_valuePlaces (count : Nat) : (Table.valuePlaces count).Nodup := by
  refine List.Pairwise.map _ (fun i j hne heq => hne ?_) List.nodup_range
  have hdigits : Nat.toDigits 10 i = Nat.toDigits 10 j := by
    simpa using congrArg String.toList heq
  have hnumber := congrArg (Nat.ofDigitChars 10 · 0) hdigits
  simpa only [Nat.ofDigitChars_toDigits (b := 10) (by decide) (by decide)] using hnumber

/-- The placeholder of the key is none of those that are numbered. -/
theorem key_not_mem_valuePlaces (count : Nat) : "key" ∉ Table.valuePlaces count := by
  intro h
  obtain ⟨i, _, hi⟩ := List.mem_map.mp h
  have hfirst := congrArg (fun s => s.toList.head?) hi
  simp at hfirst

/-- Fields side by side with as many names and placeholders. -/
theorem eq_map_zip {fields : Row} {names places : List String}
    (hnames : Entries.keys fields = names.map .text) (hplaces : places.length = names.length) :
    fields = (names.zip (places.zip (Entries.values fields))).map fun b => (.text b.1, b.2.2) := by
  induction fields generalizing names places with
  | nil => simp [Entries.values]
  | cons field fields ih =>
    obtain ⟨key, value⟩ := field
    cases names with
    | nil => cases hnames
    | cons name names =>
      cases places with
      | nil => cases hplaces
      | cons place places =>
        obtain ⟨hkey, hkeys⟩ := List.cons.inj hnames
        obtain rfl : key = .text name := hkey
        exact congrArg ((.text name, value) :: ·) (ih hkeys (Nat.succ.inj hplaces))

section

variable {t : Table} {fields : Row} {names : List String} {params : List (String × Value)}

/-- The fields of an accepted statement, each with its column and its parameter. -/
theorem exists_bound (h : t.assignments fields = .ok (names, params)) :
    ∃ bound : List (String × (String × Value)),
      fields = bound.map (fun b => (.text b.1, b.2.2)) ∧ names = bound.map Prod.fst ∧
      params = bound.map Prod.snd ∧ Entries.keys params = Table.valuePlaces names.length := by
  obtain ⟨hkeys, _⟩ := assignments_eq_ok h
  obtain ⟨_, _, h⟩ := Result.bind_eq_ok.mp h
  cases h
  have hlength : names.length = (Entries.values fields).length := by
    simpa [Entries.keys, Entries.values] using (congrArg List.length hkeys).symm
  have hplaces := length_valuePlaces names.length
  have hparams : ((Table.valuePlaces names.length).zip (Entries.values fields)).length =
      names.length := by rw [List.length_zip, hplaces, ← hlength, Nat.min_self]
  refine ⟨names.zip ((Table.valuePlaces names.length).zip (Entries.values fields)),
    eq_map_zip hkeys hplaces, ?_, ?_, ?_⟩
  · exact (List.map_fst_zip hparams.ge).symm
  · exact (List.map_snd_zip hparams.le).symm
  · exact List.map_fst_zip (by rw [hplaces, hlength])

end

section

variable {bound : List (String × (String × Value))}
  (hkeys : Entries.keys (bound.map Prod.snd) = Table.valuePlaces (bound.map Prod.fst).length)

include hkeys

theorem isName_of_bound {b : String × (String × Value)} (hb : b ∈ bound) : IsName b.2.1 :=
  isName_of_mem_valuePlaces (hkeys ▸ Entries.mem_keys_of_mem (List.mem_map_of_mem hb))

theorem nodup_keys_bound : (Entries.keys (bound.map Prod.snd)).Nodup :=
  hkeys ▸ nodup_valuePlaces _

theorem cut_places : Cut
    (", ".intercalate ((Table.valuePlaces (bound.map Prod.fst).length).map (":" ++ ·)))
    (bound.map Prod.snd) (listed ", " (bound.map fun b => [.place b.2])) := by
  rw [← hkeys, Entries.keys, List.map_map, List.map_map]
  exact Cut.listed_single (by decide) fun b hb => Cut.place (isName_of_bound hkeys hb) b.2.2

theorem cut_sets : Cut
    (", ".intercalate ((bound.map Prod.fst).zipWith (fun n place => n ++ " = :" ++ place)
      (Table.valuePlaces (bound.map Prod.fst).length)))
    (bound.map Prod.snd)
    (listed ", " (bound.map fun b => .name b.1 :: (said " = " ++ [.place b.2]))) := by
  rw [← hkeys, Entries.keys, List.map_map, List.zipWith_map, List.zipWith_self]
  refine Cut.listed_single (by decide) fun b hb => ?_
  have hset := (Cut.name b.1).append ((Cut.said " = " (by decide)).append
    (Cut.place (isName_of_bound hkeys hb) b.2.2))
  refine hset.of_eq ?_ rfl
  simp [← String.toList_inj]

end

/-! ## Statements -/

/-- Fields whose names are texts are told by these. -/
theorem map_text_injective :
    Function.Injective (List.map (Prod.map Value.text (id : Value → Value))) :=
  List.map_injective_iff.mpr (Function.Injective.prodMap (fun _ _ => Value.text.inj)
    Function.injective_id)

section

variable {t : Table} {conditions : List Condition} {statement : Statement}

theorem clauses_of_whereClause {w : Statement} (h : t.whereClause conditions = .ok w) :
    ∃ clauses, clausesFrom 0 conditions = .ok clauses ∧ w = conjunction clauses := by
  rw [Table.whereClause_eq] at h
  obtain ⟨_, _, h⟩ := Result.bind_eq_ok.mp h
  obtain ⟨clauses, hclauses, h⟩ := Result.bind_eq_ok.mp h
  exact ⟨clauses, hclauses, (Except.ok.inj h).symm⟩

theorem whereOf_closed (hconditions : ∀ c ∈ conditions, Bindable c)
    (hcolumns : ∀ c ∈ conditions, Shows c.column) :
    ∃ w tests, whereOf conditions = .ok w ∧ List.Forall₂ Asks conditions tests ∧
      w.ClosedAs (listed " AND " tests) := by
  obtain ⟨clauses, hclauses⟩ := clausesFrom_isOk 0 (fun c hc => (hconditions c hc).known)
    (fun c hc => (hconditions c hc).operands) hcolumns
  obtain ⟨pieces, hcut, _, hasks⟩ := exists_pieces hconditions hclauses
  have hclosed := Sign.closedAs_of_cut "" (by decide) hcut (placeholders_of_clausesFrom hclauses).1
  refine ⟨conjunction clauses, _, Result.bind_eq_ok.mpr ⟨clauses, hclauses, rfl⟩, hasks, ?_⟩
  simpa using hclosed

theorem select_closed {order : List Value} {limit offset : Value}
    (hconditions : ∀ c ∈ conditions, Bindable c)
    (h : t.select conditions order limit offset = .ok statement) :
    ∃ name tests sorting top first, t.name.text? = .ok name ∧ List.Forall₂ Asks conditions tests ∧
      statement.ClosedAs (selectSigns name t.columns tests sorting top first) := by
  obtain ⟨name, hname, h⟩ := Result.bind_eq_ok.mp h
  obtain ⟨w, hw, h⟩ := Result.bind_eq_ok.mp h
  obtain ⟨sorting, hsorting, h⟩ := Result.bind_eq_ok.mp h
  obtain ⟨limitText, hlimit, h⟩ := Result.bind_eq_ok.mp h
  obtain ⟨offsetText, hoffset, h⟩ := Result.bind_eq_ok.mp h
  cases h
  obtain ⟨clauses, hclauses, rfl⟩ := clauses_of_whereClause hw
  obtain ⟨pieces, _, hwhere, hasks⟩ := exists_pieces hconditions hclauses
  obtain ⟨parts, _, _, rfl⟩ := orderClause_parts hsorting
  obtain ⟨top, _, rfl⟩ := numberSuffix_eq_ok hlimit
  obtain ⟨first, _, rfl⟩ := numberSuffix_eq_ok hoffset
  have hlimits := (cut_numberText (by decide : ':' ∉ "LIMIT".toList) top).append
    (cut_numberText (by decide : ':' ∉ "OFFSET".toList) first)
  have hcut := (cut_names t.columns).append ((Cut.said " FROM " (by decide)).append
    ((Cut.name name).append (hwhere.append ((cut_orderText parts).append hlimits))))
  have hnodup : (Entries.keys (conjunction clauses).params).Nodup :=
    (placeholders_of_clausesFrom hclauses).1
  have hclosed := Sign.closedAs_of_cut "SELECT " (by decide) hcut (by simpa using hnodup)
  refine ⟨name, _, parts, top, first, hname, hasks, ?_⟩
  rw [← map_selectSigns]
  simpa [selectSigns, String.append_assoc, Table.columnList] using hclosed

theorem count_closed (hconditions : ∀ c ∈ conditions, Bindable c)
    (h : t.count conditions = .ok statement) :
    ∃ name tests, t.name.text? = .ok name ∧ List.Forall₂ Asks conditions tests ∧
      statement.ClosedAs (countSigns name tests) := by
  obtain ⟨name, hname, h⟩ := Result.bind_eq_ok.mp h
  obtain ⟨w, hw, h⟩ := Result.bind_eq_ok.mp h
  cases h
  obtain ⟨clauses, hclauses, rfl⟩ := clauses_of_whereClause hw
  obtain ⟨pieces, _, hwhere, hasks⟩ := exists_pieces hconditions hclauses
  have hnodup : (Entries.keys (conjunction clauses).params).Nodup :=
    (placeholders_of_clausesFrom hclauses).1
  have hclosed := Sign.closedAs_of_cut "SELECT COUNT(*) FROM " (by decide)
    ((Cut.name name).append hwhere) (by simpa using hnodup)
  refine ⟨name, _, hname, hasks, ?_⟩
  rw [← map_countSigns]
  simpa [countSigns, String.append_assoc] using hclosed

theorem insert_closed {fields : Row} (h : t.insert fields = .ok statement) :
    ∃ name, ∃ named : List (String × Value), t.name.text? = .ok name ∧
      fields = named.map (Prod.map .text id) ∧ statement.ClosedAs (insertSigns name named) := by
  obtain ⟨⟨names, params⟩, hassigned, h⟩ := Result.bind_eq_ok.mp h
  obtain ⟨name, hname, h⟩ := Result.bind_eq_ok.mp h
  obtain ⟨bound, hfields, rfl, rfl, hkeys⟩ := exists_bound hassigned
  refine ⟨name, bound.map (Prod.map id Prod.snd), hname, ?_, ?_⟩
  · rw [List.map_map]
    exact hfields
  rw [← map_insertSigns]
  by_cases hempty : bound = []
  · subst hempty
    cases h
    have hcut := (Cut.name name).append (Cut.said " DEFAULT VALUES" (by decide))
    have hclosed := Sign.closedAs_of_cut "INSERT INTO " (by decide) hcut .nil
    simpa [insertSigns, String.append_assoc] using hclosed
  · have hcut := (Cut.name name).append ((Cut.said " (" (by decide)).append
      ((cut_names (bound.map Prod.fst)).append ((Cut.said ") VALUES (" (by decide)).append
        ((cut_places hkeys).append (Cut.said ")" (by decide))))))
    have hclosed := Sign.closedAs_of_cut "INSERT INTO " (by decide) hcut
      (by simpa using nodup_keys_bound hkeys)
    have hsome : (bound.map Prod.fst).isEmpty = false := by simpa using hempty
    simp only [hsome] at h
    cases h
    simpa [insertSigns, String.append_assoc, hempty, Function.comp_def] using hclosed

theorem update_closed {keyColumn key : Value} {fields : Row}
    (h : t.update keyColumn key fields = .ok statement) :
    ∃ name column, ∃ named : List (String × Value), t.name.text? = .ok name ∧
      keyColumn = .text column ∧ fields = named.map (Prod.map .text id) ∧
      statement.ClosedAs (updateSigns name named column key) := by
  obtain ⟨⟨names, params⟩, hassigned, h⟩ := Result.bind_eq_ok.mp h
  obtain ⟨name, hname, h⟩ := Result.bind_eq_ok.mp h
  obtain ⟨bound, hfields, rfl, rfl, hkeys⟩ := exists_bound hassigned
  split at h
  · cases h
  obtain ⟨column, hcolumn, h⟩ := Result.bind_eq_ok.mp h
  cases h
  obtain ⟨rfl, _⟩ := Table.column_eq_ok.mp hcolumn
  refine ⟨name, column, bound.map (Prod.map id Prod.snd), hname, rfl, ?_, ?_⟩
  · rw [List.map_map]
    exact hfields
  have hnodup : (Entries.keys (bound.map Prod.snd ++ [("key", key)])).Nodup := by
    rw [Entries.keys_append, hkeys]
    refine List.nodup_append.mpr ⟨nodup_valuePlaces _, List.pairwise_singleton _ _, ?_⟩
    rintro place hplace _ hkey rfl
    exact key_not_mem_valuePlaces _ (List.mem_singleton.mp hkey ▸ hplace)
  have hkey : IsName "key" := by simp [IsName]
  have hcut := (Cut.name name).append ((Cut.said " SET " (by decide)).append
    ((cut_sets hkeys).append ((Cut.said " WHERE " (by decide)).append
      ((Cut.name column).append ((Cut.said " = " (by decide)).append (Cut.place hkey key))))))
  have hclosed := Sign.closedAs_of_cut "UPDATE " (by decide) hcut (by simpa using hnodup)
  have hreading := map_updateSigns Prod.snd name bound column ("key", key)
  have heq : " = " ++ ":key" = " = :key" := by decide
  rw [← hreading]
  simpa [updateSigns, String.append_assoc, heq] using hclosed

end

/-! ## Main result -/

/-- **Statements are closed under their parameters.** Conditions with comparisons that statements have,
on columns that have a text, become a clause that reads with each condition's own operand, or with
its two bounds in order. An accepted query for records, or for their number, reads with such a clause
for its conditions; an accepted insertion with the value of each field under its column; and an
accepted update with the value of each field beside its column and the key beside the column of keys.
In all of them the placeholders in the text are just the parameters, each of them once. -/
theorem statements_closed (t : Table) :
    (∀ conditions, (∀ c ∈ conditions, Bindable c) →
      ((∀ c ∈ conditions, Shows c.column) →
        ∃ w tests, whereOf conditions = .ok w ∧ List.Forall₂ Asks conditions tests ∧
          w.ClosedAs (listed " AND " tests)) ∧
      (∀ order limit offset statement, t.select conditions order limit offset = .ok statement →
        ∃ name tests sorting top first, t.name.text? = .ok name ∧
          List.Forall₂ Asks conditions tests ∧
          statement.ClosedAs (selectSigns name t.columns tests sorting top first)) ∧
      (∀ statement, t.count conditions = .ok statement →
        ∃ name tests, t.name.text? = .ok name ∧ List.Forall₂ Asks conditions tests ∧
          statement.ClosedAs (countSigns name tests))) ∧
    (∀ fields statement, t.insert fields = .ok statement →
      ∃ name, ∃ named : List (String × Value), t.name.text? = .ok name ∧
        fields = named.map (Prod.map .text id) ∧
        statement.ClosedAs (insertSigns name named)) ∧
    (∀ keyColumn key fields statement, t.update keyColumn key fields = .ok statement →
      ∃ name column, ∃ named : List (String × Value), t.name.text? = .ok name ∧
        keyColumn = .text column ∧ fields = named.map (Prod.map .text id) ∧
        statement.ClosedAs (updateSigns name named column key)) := by
  refine ⟨fun conditions hconditions => ⟨?_, ?_, ?_⟩, ?_, ?_⟩
  · exact whereOf_closed hconditions
  · exact fun _ _ _ _ => select_closed hconditions
  · exact fun _ => count_closed hconditions
  · exact fun _ _ => insert_closed
  · exact fun _ _ _ _ => update_closed

/-- A search with three kinds of conditions, a record of a name and a day, and a change of both. -/
theorem statements_closed_of_users :
    let users : Table := ⟨.text "users", ["id", "name", "born"]⟩
    let conditions : List Condition := [⟨.text "id", .equal, .int 30⟩,
      ⟨.text "born", .between, .pair (.int 1) (.int 2)⟩, ⟨.text "name", .like, .text "%Jo%"⟩]
    let fields : List (String × Value) := [("name", .text "Jo"), ("born", .null)]
    (∃ w tests, whereOf conditions = .ok w ∧ List.Forall₂ Asks conditions tests ∧
      w.ClosedAs (listed " AND " tests)) ∧
    (∃ query tests sorting top first,
      users.select conditions [.pair (.text "name") (.text "asc")] (.int 10) .null = .ok query ∧
      List.Forall₂ Asks conditions tests ∧
      query.ClosedAs (selectSigns "users" users.columns tests sorting top first)) ∧
    (∃ number tests, users.count conditions = .ok number ∧ List.Forall₂ Asks conditions tests ∧
      number.ClosedAs (countSigns "users" tests)) ∧
    (∃ inserting, users.insert (fields.map (Prod.map .text id)) = .ok inserting ∧
      inserting.ClosedAs (insertSigns "users" fields)) ∧
    ∃ updating, users.update (.text "id") (.int 7) (fields.map (Prod.map .text id)) = .ok updating ∧
      updating.ClosedAs (updateSigns "users" fields "id" (.int 7)) := by
  intro users conditions fields
  obtain ⟨queries, inserts, updates⟩ := statements_closed users
  have hconditions : ∀ c ∈ conditions, Bindable c := by
    simp [conditions, Bindable, Value.items?]
  obtain ⟨hwhere, hselect, hcount⟩ := queries conditions hconditions
  obtain ⟨query, hquery⟩ := Result.exists_of_isOk
    (x := users.select conditions [.pair (.text "name") (.text "asc")] (.int 10) .null)
    (by decide +kernel)
  obtain ⟨number, hnumber⟩ := Result.exists_of_isOk (x := users.count conditions)
    (by decide +kernel)
  obtain ⟨inserting, hinserting⟩ := Result.exists_of_isOk
    (x := users.insert (fields.map (Prod.map .text id))) (by decide +kernel)
  obtain ⟨updating, hupdating⟩ := Result.exists_of_isOk
    (x := users.update (.text "id") (.int 7) (fields.map (Prod.map .text id))) (by decide +kernel)
  refine ⟨hwhere (by simp [conditions, Shows]), ?_, ?_, ⟨inserting, hinserting, ?_⟩,
    ⟨updating, hupdating, ?_⟩⟩
  · obtain ⟨_, tests, sorting, top, first, hname, hasks, hclosed⟩ := hselect _ _ _ _ hquery
    cases hname
    exact ⟨query, tests, sorting, top, first, hquery, hasks, hclosed⟩
  · obtain ⟨_, tests, hname, hasks, hclosed⟩ := hcount _ hnumber
    cases hname
    exact ⟨number, tests, hnumber, hasks, hclosed⟩
  · obtain ⟨_, named, hname, hfields, hclosed⟩ := inserts _ _ hinserting
    cases hname
    rwa [map_text_injective hfields]
  · obtain ⟨_, column, named, hname, hcolumn, hfields, hclosed⟩ := updates _ _ _ _ hupdating
    cases hname
    cases hcolumn
    rwa [map_text_injective hfields]

end Sql

end EntityApi
