import EntityApi.Proofs.Filter.Readings

/-! # The grammar of filters

A descriptor that gives texts, or leaves them out, asks for one condition (`Asks`) or is
faulty for one cause (`Faulty`). It is compiled to the one or refused for the other, so a
series of descriptors gives the conditions that they ask for, in their order, or is
refused for the first of them that is faulty (`filters_decided`). No other failure can
come of it. -/
namespace EntityApi.Filter

open Numeral (Plain)

/-- What a descriptor says: its value type, its value and the two ways to name its column. -/
def names : List String := ["value_type", "value", "column_key", "column_name"]

/-- All that the descriptor says is texts, or left out. -/
def Textual (spec : List (Value × Value)) : Prop :=
  ∀ name ∈ names, Value.field spec name = .null ∨ ∃ s, Value.field spec name = .text s

/-- The column that the descriptor names: its key, or else its name, where an empty text names
nothing. -/
inductive Names (spec : List (Value × Value)) : String → Prop
  | key {column : String} (hne : column ≠ "") (h : Value.field spec "column_key" = .text column) :
      Names spec column
  | name {column : String} (hne : column ≠ "") (h : Value.field spec "column_name" = .text column)
      (hkey : Value.field spec "column_key" = .null ∨ Value.field spec "column_key" = .text "") :
      Names spec column

/-- The column as messages show it. -/
def shownColumn (spec : List (Value × Value)) : String :=
  match columnOf spec with
  | .text column => column
  | _ => "None"

/-- The condition that the descriptor asks for. It has a value, names a column, and the value means
the condition on that column under the value type. -/
inductive Asks (spec : List (Value × Value)) (c : Condition) : Prop
  | of {v column : String} (hvalue : Value.field spec "value" = .text v)
      (hcolumn : Names spec column)
      (hmeans : Means (.text column) (Value.field spec "value_type") v c)

/-- What is wrong with the descriptor. A missing value comes first, and a missing column last. -/
inductive Faulty (spec : List (Value × Value)) : FilterFault → Prop
  | noValue (hvalue : Value.field spec "value" = .null) : Faulty spec .noValue
  | misread {v : String} {fault : FilterFault} (hvalue : Value.field spec "value" = .text v)
      (h : Misread (shownColumn spec) (Value.field spec "value_type") v fault) : Faulty spec fault
  | noColumn {v : String} (hvalue : Value.field spec "value" = .text v)
      (hmeans : ∃ column c, Means column (Value.field spec "value_type") v c)
      (h : ∀ column, ¬Names spec column) : Faulty spec .noColumn

section

variable {spec : List (Value × Value)} {column : String} {c : Condition} {fault : FilterFault}

/-! ## The column -/

theorem truthy_text {s : String} : (Value.text s).truthy = true ↔ s ≠ "" := by
  simp [Value.truthy]

theorem columnOf_of_names (h : Names spec column) : columnOf spec = .text column := by
  unfold columnOf
  cases h with
  | key hne h =>
    rw [h]
    exact if_pos (truthy_text.mpr hne)
  | name hne h hkey =>
    rcases hkey with hkey | hkey <;> rw [hkey, h] <;> rfl

theorem truthy_of_names (h : Names spec column) : (columnOf spec).truthy = true := by
  rw [columnOf_of_names h, truthy_text]
  cases h <;> assumption

/-- The column of texts is a text or left out. -/
theorem Textual.columnOf_eq (h : Textual spec) :
    columnOf spec = .null ∨ ∃ column, columnOf spec = .text column := by
  unfold columnOf
  dsimp only
  split
  · exact h "column_key" (by decide)
  · exact h "column_name" (by decide)

theorem Textual.text?_columnOf (h : Textual spec) :
    (columnOf spec).text? = .ok (shownColumn spec) := by
  unfold shownColumn
  rcases h.columnOf_eq with hc | ⟨column, hc⟩ <;> rw [hc] <;> rfl

theorem Textual.exists_names (h : Textual spec) (hcolumn : (columnOf spec).truthy = true) :
    ∃ column, Names spec column := by
  unfold columnOf at hcolumn
  dsimp only at hcolumn
  split at hcolumn
  · rcases h "column_key" (by decide) with hkey | ⟨column, hkey⟩ <;> rw [hkey] at hcolumn
    · cases hcolumn
    · exact ⟨column, .key (truthy_text.mp hcolumn) hkey⟩
  · rename_i hfalse
    have hkey : Value.field spec "column_key" = .null ∨ Value.field spec "column_key" = .text "" := by
      rcases h "column_key" (by decide) with hkey | ⟨key, hkey⟩
      · exact .inl hkey
      · rw [hkey, truthy_text, not_not] at hfalse
        exact .inr (hfalse ▸ hkey)
    rcases h "column_name" (by decide) with hname | ⟨column, hname⟩ <;> rw [hname] at hcolumn
    · cases hcolumn
    · exact ⟨column, .name (truthy_text.mp hcolumn) hname hkey⟩

/-! ## One descriptor -/

theorem Textual.isKey_type (h : Textual spec) : (Value.field spec "value_type").isKey = true := by
  rcases h "value_type" (by decide) with ht | ⟨s, ht⟩ <;> rw [ht] <;> rfl

theorem compileOne_of_asks (htext : Textual spec) (h : Asks spec c) :
    compileOne (.map spec) = .ok c := by
  obtain ⟨hvalue, hcolumn, hmeans⟩ := h
  rw [compileOne_of_column hvalue (truthy_of_names hcolumn), columnOf_of_names hcolumn]
  exact conditionFor_of_means hmeans htext.isKey_type

/-- Under one value type, what a value means on a column it means on any. -/
theorem Means.exists_on {type x : Value} {v : String} (h : Means x type v c) (y : Value) :
    ∃ d, Means y type v d := by
  cases h with
  | number hn => exact ⟨_, .number hn⟩
  | real hx hfinite => exact ⟨_, .real hx hfinite⟩
  | part => exact ⟨_, .part v⟩
  | range hparts hlo hhi hreached hlow hhigh =>
    exact ⟨_, .range hparts hlo hhi hreached hlow hhigh⟩
  | raw _ htype => exact ⟨_, .raw v htype⟩

theorem compileOne_of_faulty (htext : Textual spec) (h : Faulty spec fault) :
    compileOne (.map spec) = .error (.malformedFilter fault) := by
  cases h with
  | noValue hvalue =>
    unfold compileOne
    simp only [hvalue]
    rfl
  | misread hvalue h =>
    rw [compileOne_of_text hvalue, conditionFor_of_misread h htext.text?_columnOf]
    rfl
  | noColumn hvalue hmeans h =>
    obtain ⟨x, c, hmeans⟩ := hmeans
    obtain ⟨d, hd⟩ := hmeans.exists_on (columnOf spec)
    have hcolumn : ¬(columnOf spec).truthy = true := fun htrue =>
      let ⟨column, hnames⟩ := htext.exists_names htrue
      h column hnames
    rw [compileOne_of_text hvalue, conditionFor_of_means hd htext.isKey_type, Result.ok_bind,
      if_neg hcolumn]
    rfl

theorem asks_or_faulty (htext : Textual spec) :
    (∃ c, Asks spec c) ∨ ∃ fault, Faulty spec fault := by
  rcases htext "value" (by decide) with hvalue | ⟨v, hvalue⟩
  · exact .inr ⟨_, .noValue hvalue⟩
  · rcases means_or_misread (columnOf spec) (Value.field spec "value_type") v (shownColumn spec) with
      ⟨c, hmeans⟩ | ⟨fault, h⟩
    · by_cases hnames : ∃ column, Names spec column
      · obtain ⟨column, hcolumn⟩ := hnames
        exact .inl ⟨c, .of hvalue hcolumn (columnOf_of_names hcolumn ▸ hmeans)⟩
      · exact .inr ⟨_, .noColumn hvalue ⟨_, c, hmeans⟩ (not_exists.mp hnames)⟩
    · exact .inr ⟨fault, .misread hvalue h⟩

theorem compileOne_eq_ok (htext : Textual spec) : compileOne (.map spec) = .ok c ↔ Asks spec c := by
  refine ⟨fun h => ?_, compileOne_of_asks htext⟩
  rcases asks_or_faulty htext with ⟨d, hd⟩ | ⟨fault, hfault⟩
  · rw [compileOne_of_asks htext hd] at h
    exact Except.ok.inj h ▸ hd
  · rw [compileOne_of_faulty htext hfault] at h
    cases h

theorem compileOne_eq_error {e : Failure} (htext : Textual spec) :
    compileOne (.map spec) = .error e ↔ ∃ fault, Faulty spec fault ∧ e = .malformedFilter fault := by
  constructor
  · intro h
    rcases asks_or_faulty htext with ⟨d, hd⟩ | ⟨fault, hfault⟩
    · rw [compileOne_of_asks htext hd] at h
      cases h
    · rw [compileOne_of_faulty htext hfault] at h
      exact ⟨fault, hfault, (Except.error.inj h).symm⟩
  · rintro ⟨fault, hfault, rfl⟩
    exact compileOne_of_faulty htext hfault

end

/-! ## A series of descriptors -/

theorem compile_list (specs : List Value) : compile (.list specs) = specs.mapM compileOne := by
  cases specs <;> rfl

/-- Some descriptor has the fault, and all before it ask for conditions. -/
def FirstFaulty (specs : List (List (Value × Value))) (fault : FilterFault) : Prop :=
  ∃ before spec after, specs = before ++ spec :: after ∧ (∀ x ∈ before, ∃ c, Asks x c) ∧
    Faulty spec fault

section

variable {specs : List (List (Value × Value))} {conditions : List Condition} {e : Failure}

theorem compile_eq_ok (htext : ∀ spec ∈ specs, Textual spec) :
    compile (.list (specs.map .map)) = .ok conditions ↔ List.Forall₂ Asks specs conditions := by
  rw [compile_list, Result.mapM_eq_ok, List.forall₂_map_left_iff]
  exact Result.forall₂_congr_of_mem fun spec hspec _ => compileOne_eq_ok (htext spec hspec)

theorem compile_eq_error (htext : ∀ spec ∈ specs, Textual spec) :
    compile (.list (specs.map .map)) = .error e ↔
      ∃ fault, FirstFaulty specs fault ∧ e = .malformedFilter fault := by
  rw [compile_list, Result.mapM_eq_error, Result.firstRefused_map]
  constructor
  · rintro ⟨before, spec, after, rfl, hbefore, hspec⟩
    obtain ⟨fault, hfault, rfl⟩ := (compileOne_eq_error (htext spec (by simp))).mp hspec
    refine ⟨fault, ⟨before, spec, after, rfl, fun x hx => ?_, hfault⟩, rfl⟩
    obtain ⟨c, hc⟩ := hbefore x hx
    exact ⟨c, (compileOne_eq_ok (htext x (List.mem_append_left _ hx))).mp hc⟩
  · rintro ⟨fault, ⟨before, spec, after, rfl, hbefore, hfault⟩, rfl⟩
    refine ⟨before, spec, after, rfl, fun x hx => ?_, compileOne_of_faulty (htext spec (by simp)) hfault⟩
    obtain ⟨c, hc⟩ := hbefore x hx
    exact ⟨c, compileOne_of_asks (htext x (List.mem_append_left _ hx)) hc⟩

/-- **Filters that give texts are compiled by their grammar.** A series of them gives one condition
for each, the one that it asks for, in the same order; or it is refused as malformed, for what is
wrong with the first that is faulty. A descriptor is faulty just where it asks for nothing. Every
number of at most 4300 digits can be asked for by its decimal form. -/
theorem filters_decided (htext : ∀ spec ∈ specs, Textual spec) :
    (∀ conditions, compile (.list (specs.map .map)) = .ok conditions ↔
      List.Forall₂ Asks specs conditions) ∧
    (∀ e, compile (.list (specs.map .map)) = .error e ↔
      ∃ fault, FirstFaulty specs fault ∧ e = .malformedFilter fault) ∧
    (∀ spec ∈ specs, (∃ fault, Faulty spec fault) ↔ ∀ c, ¬Asks spec c) ∧
    (∀ n : Int, (Nat.toDigits 10 n.natAbs).length ≤ 4300 →
      ∃ numeral, (Value.int n).text? = .ok numeral ∧ ∀ spec column,
        Value.field spec "value_type" = .text "Int" → Value.field spec "value" = .text numeral →
        Names spec column → Asks spec ⟨.text column, .equal, .int n⟩) := by
  refine ⟨fun _ => compile_eq_ok htext, fun _ => compile_eq_error htext, ?faulty, ?decimal⟩
  case faulty =>
    intro spec hspec
    constructor
    · rintro ⟨fault, hfault⟩ c hc
      have h := compileOne_of_asks (htext spec hspec) hc
      rw [compileOne_of_faulty (htext spec hspec) hfault] at h
      cases h
    · intro h
      exact (asks_or_faulty (htext spec hspec)).resolve_left (not_exists.mpr h)
  case decimal =>
    intro n hn
    refine ⟨String.ofList (Numeral.write n), ?_, fun spec column htype hvalue hcolumn => ?_⟩
    · have hlt := Numeral.lt_of_length_toDigits_le (k := Numeral.digitLimit) (by decide) hn
      rw [Value.text?_int, Value.intText?_of_lt hlt]
    · refine .of hvalue hcolumn (htype ▸ .number ?_)
      rw [String.toList_ofList]
      exact Numeral.plain_write hn

end

/-- A number with a minus, zeros and blanks and a range of milliseconds on the column of the key are
compiled. With a plus before the number, the whole series is refused for it. -/
theorem filters_decided_of_numbers :
    let age (value : String) : List (Value × Value) := [(.text "value_type", .text "Int"),
      (.text "column_name", .text "age"), (.text "value", .text value)]
    let range : List (Value × Value) := [(.text "value_type", .text "Date"),
      (.text "column_name", .text "at"), (.text "column_key", .text "created_at"),
      (.text "value", .text "0, 1000")]
    let low : Moment := ⟨0, some .utc, by decide⟩
    let high : Moment := ⟨1000000, some .utc, by decide⟩
    (∀ spec ∈ [age " -007\n", age "+7", range], Textual spec) ∧
    List.Forall₂ Asks [age " -007\n", range] [⟨.text "age", .equal, .int (-7)⟩,
      ⟨.text "created_at", .between, .list [.moment low, .moment high]⟩] ∧
    FirstFaulty [age " -007\n", age "+7", range] (.notInteger "age" "+7") := by
  intro age range low high
  have htext : ∀ spec ∈ [age " -007\n", age "+7", range], Textual spec := by
    simp [age, range, Textual, names, Value.field, Value.lookup, Entries.get?]
  have htwo : ∀ spec ∈ [age " -007\n", range], Textual spec := fun spec h =>
    htext spec (by simp only [List.mem_cons, List.not_mem_nil, or_false] at h ⊢; tauto)
  refine ⟨htext, ((filters_decided htwo).1 _).mp (by with_unfolding_all rfl), ?_⟩
  obtain ⟨fault, hfirst, he⟩ := ((filters_decided htext).2.1
    (.malformedFilter (.notInteger "age" "+7"))).mp (by with_unfolding_all rfl)
  cases he
  exact hfirst

end EntityApi.Filter
