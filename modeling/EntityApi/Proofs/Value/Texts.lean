import EntityApi.Proofs.Results
import EntityApi.Value.ToJson

/-! # Which values have a text

Writing a value out fails for one reason only, a whole number of too many digits
in it (`text?_eq_error`), and a value can be shown just if there is no such number
in it (`exists_shown?_iff`). A value that has a plain text has a shown one too
(`shown?_of_text?`). A table of such values under texts can be written as JSON
(`exists_toJson?_map`). -/
namespace EntityApi.Value

/-- The text is there unless a whole number in it has too many digits. -/
def Fits {α : Type} (r : Result α) : Prop := ∀ e, r = .error e → ∃ text, e = .accident .badValue text

/-- The operation is refused, if at all, for one cause. -/
def RefusedFor {α : Type} (cause : Failure) (r : Result α) : Prop := ∀ e, r = .error e → e = cause

section

variable {α β : Type} {cause : Failure}

theorem RefusedFor.ok (a : α) : RefusedFor cause (.ok a : Result α) := nofun

theorem RefusedFor.bind {r : Result α} {f : α → Result β} (hr : RefusedFor cause r)
    (hf : ∀ a, RefusedFor cause (f a)) : RefusedFor cause (r >>= f) := by
  intro e h
  rcases Result.bind_eq_error.mp h with h | ⟨a, _, h⟩
  · exact hr e h
  · exact hf a e h

theorem RefusedFor.mapM {f : α → Result β} (h : ∀ a, RefusedFor cause (f a)) (as : List α) :
    RefusedFor cause (as.mapM f) := by
  intro e he
  obtain ⟨_, a, _, _, _, ha⟩ := Result.mapM_eq_error.mp he
  exact h a e ha

end

/-- What a value is not written out for. -/
def overlong : Failure :=
  .accident .badValue ("Exceeds the limit (4300 digits) for integer string conversion; " ++
    "use sys.set_int_max_str_digits() to increase the limit")

theorem RefusedFor.fits {α : Type} {r : Result α} (h : RefusedFor overlong r) : Fits r :=
  fun e he => ⟨_, h e he⟩

theorem intText?_refused (n : Int) : RefusedFor overlong (intText? n) := by
  intro e h
  unfold intText? at h
  split at h <;> cases h
  rfl

theorem intText?_fits (n : Int) : Fits (intText? n) := (intText?_refused n).fits

theorem intText?_of_lt {n : Int} (h : n.natAbs < Nat.pow 10 Numeral.digitLimit) :
    intText? n = .ok (String.ofList (Numeral.write n)) := by
  unfold intText? Numeral.write?
  rw [if_pos h]

theorem text?_int (n : Int) : text? (int n) = intText? n := by
  simp only [text?, shown?]

theorem shown?_refused (v : Value) : RefusedFor overlong (shown? v) := by
  refine shown?.induct (fun v => RefusedFor overlong (shown? v))
    (fun es => RefusedFor overlong (shownEntries? es))
    (fun vs => RefusedFor overlong (shownList? vs)) ?null ?bool ?int ?real ?text ?moment ?day
    ?decimal ?bytes ?list ?pair ?empty ?set ?map ?nil ?cons ?noEntry ?entry v
  case int =>
    intro n
    rw [shown?]
    exact intText?_refused n
  case list =>
    intro items ih
    rw [shown?]
    exact ih.bind fun _ => .ok _
  case pair =>
    intro a b iha ihb
    rw [shown?]
    exact iha.bind fun _ => ihb.bind fun _ => .ok _
  case set =>
    intro members hne ih
    rw [shown?]
    · exact ih.bind fun _ => .ok _
    · exact hne
  case map =>
    intro entries ih
    rw [shown?]
    exact ih.bind fun _ => .ok _
  case cons =>
    intro v vs ihv ihvs
    rw [shownList?]
    exact ihv.bind fun _ => ihvs.bind fun _ => .ok _
  case entry =>
    intro k v es ihk ihv ihes
    rw [shownEntries?]
    exact ihk.bind fun _ => ihv.bind fun _ => ihes.bind fun _ => .ok _
  all_goals
    intros
    simp only [shown?, shownList?, shownEntries?]
    exact .ok _

theorem shown?_fits (v : Value) : Fits (shown? v) := (shown?_refused v).fits

/-- The plain text of a value is its shown one, or else both are there. -/
theorem text?_eq_shown? (v : Value) : text? v = shown? v ∨
    (∃ s, text? v = .ok s) ∧ ∃ s, shown? v = .ok s := by
  cases v <;> simp [text?, shown?]

theorem text?_refused (v : Value) : RefusedFor overlong (text? v) := by
  rcases text?_eq_shown? v with h | ⟨⟨s, h⟩, _⟩
  · rw [h]
    exact shown?_refused v
  · rw [h]
    exact .ok s

theorem text?_fits (v : Value) : Fits (text? v) := (text?_refused v).fits

/-- There is no plain text of the value. -/
def Unwritable (v : Value) : Prop := ∀ s, v.text? ≠ .ok s

theorem text?_eq_error {v : Value} {e : Failure} :
    v.text? = .error e ↔ v.Unwritable ∧ e = overlong := by
  constructor
  · intro h
    refine ⟨fun s hs => ?_, text?_refused v e h⟩
    cases h.symm.trans hs
  · rintro ⟨hv, rfl⟩
    cases hr : v.text? with
    | ok s => exact absurd hr (hv s)
    | error e => rw [text?_refused v e hr]

theorem shown?_of_text? {v : Value} {s : String} (h : text? v = .ok s) : ∃ t, shown? v = .ok t := by
  rcases text?_eq_shown? v with he | ⟨_, ht⟩
  · exact ⟨s, he ▸ h⟩
  · exact ht

/-- What counts as absent can be shown. -/
theorem shown?_of_not_truthy {v : Value} (h : v.truthy = false) : ∃ t, shown? v = .ok t := by
  cases v with
  | int n =>
    have hzero : n = 0 := by simpa [truthy] using h
    rw [hzero, shown?, intText?_of_lt (Nat.pow_pos (by decide))]
    exact ⟨_, rfl⟩
  | list items =>
    have hnil : items = [] := by simpa [truthy] using h
    rw [hnil]
    exact ⟨_, rfl⟩
  | set members =>
    have hnil : members = [] := by simpa [truthy] using h
    rw [hnil]
    exact ⟨_, rfl⟩
  | map entries =>
    have hnil : entries = [] := by simpa [truthy] using h
    rw [hnil]
    exact ⟨_, rfl⟩
  | pair a b => cases h
  | moment m => cases h
  | day d => cases h
  | null => exact ⟨_, rfl⟩
  | bool b => exact ⟨_, rfl⟩
  | real x => exact ⟨_, rfl⟩
  | text s => exact ⟨_, rfl⟩
  | decimal d => exact ⟨_, rfl⟩
  | bytes b => exact ⟨_, rfl⟩

/-! ## Whole numbers that are too long -/

/-- There is a whole number in the value that has more digits than are written out. -/
inductive Outsized : Value → Prop
  | int {n : Int} (h : Nat.pow 10 Numeral.digitLimit ≤ n.natAbs) : Outsized (int n)
  | first {a b : Value} (h : Outsized a) : Outsized (pair a b)
  | second {a b : Value} (h : Outsized b) : Outsized (pair a b)
  | item {items : List Value} {v : Value} (hv : v ∈ items) (h : Outsized v) : Outsized (list items)
  | member {members : List Value} {v : Value} (hv : v ∈ members) (h : Outsized v) :
    Outsized (set members)
  | name {entries : List (Value × Value)} {k v : Value} (he : (k, v) ∈ entries) (h : Outsized k) :
    Outsized (map entries)
  | entry {entries : List (Value × Value)} {k v : Value} (he : (k, v) ∈ entries) (h : Outsized v) :
    Outsized (map entries)

theorem outsized_int_iff {n : Int} :
    (int n).Outsized ↔ ¬n.natAbs < Nat.pow 10 Numeral.digitLimit := by
  rw [Nat.not_lt]
  exact ⟨fun | .int h => h, .int⟩

theorem outsized_pair_iff {a b : Value} : (pair a b).Outsized ↔ a.Outsized ∨ b.Outsized :=
  ⟨fun | .first h => .inl h | .second h => .inr h, fun h => h.elim .first .second⟩

theorem outsized_list_iff {items : List Value} :
    (list items).Outsized ↔ ∃ v ∈ items, v.Outsized :=
  ⟨fun | .item hv h => ⟨_, hv, h⟩, fun ⟨_, hv, h⟩ => .item hv h⟩

theorem outsized_set_iff {members : List Value} :
    (set members).Outsized ↔ ∃ v ∈ members, v.Outsized :=
  ⟨fun | .member hv h => ⟨_, hv, h⟩, fun ⟨_, hv, h⟩ => .member hv h⟩

theorem outsized_map_iff {entries : List (Value × Value)} :
    (map entries).Outsized ↔ ∃ e ∈ entries, e.1.Outsized ∨ e.2.Outsized :=
  ⟨fun | .name he h => ⟨_, he, .inl h⟩ | .entry he h => ⟨_, he, .inr h⟩,
    fun ⟨_, he, h⟩ => h.elim (.name he) (.entry he)⟩

theorem exists_intText?_iff {n : Int} :
    (∃ s, intText? n = .ok s) ↔ n.natAbs < Nat.pow 10 Numeral.digitLimit := by
  refine ⟨fun ⟨s, hs⟩ => ?_, fun h => ⟨_, intText?_of_lt h⟩⟩
  by_contra h
  unfold intText? Numeral.write? at hs
  rw [if_neg h] at hs
  cases hs

/-- A value can be shown just if every whole number in it can be written out. -/
theorem exists_shown?_iff (v : Value) : (∃ s, shown? v = .ok s) ↔ ¬v.Outsized := by
  refine shown?.induct (fun v => (∃ s, shown? v = .ok s) ↔ ¬v.Outsized)
    (fun es => (∃ l, shownEntries? es = .ok l) ↔ ∀ e ∈ es, ¬e.1.Outsized ∧ ¬e.2.Outsized)
    (fun vs => (∃ l, shownList? vs = .ok l) ↔ ∀ v ∈ vs, ¬v.Outsized) ?null ?bool ?int ?real ?text
    ?moment ?day ?decimal ?bytes ?list ?pair ?empty ?set ?map ?nil ?cons ?noEntry ?entry v
  case int =>
    intro n
    rw [shown?, exists_intText?_iff, outsized_int_iff, not_not]
  case list =>
    intro items ih
    rw [shown?, Result.exists_bind_pure, ih, outsized_list_iff]
    push Not
    rfl
  case pair =>
    intro a b iha ihb
    rw [shown?, Result.exists_bind_iff fun _ => Result.exists_bind_pure, iha, ihb, outsized_pair_iff,
      not_or]
  case set =>
    intro members hne ih
    rw [shown?, Result.exists_bind_pure, ih, outsized_set_iff]
    · push Not
      rfl
    · exact hne
  case map =>
    intro entries ih
    rw [shown?, Result.exists_bind_pure, ih, outsized_map_iff]
    push Not
    rfl
  case cons =>
    intro v vs ihv ihvs
    rw [shownList?, Result.exists_bind_iff fun _ => Result.exists_bind_pure, ihv, ihvs,
      List.forall_mem_cons]
  case entry =>
    intro k v es ihk ihv ihes
    rw [shownEntries?, Result.exists_bind_iff fun _ => Result.exists_bind_iff fun _ =>
      Result.exists_bind_pure, ihk, ihv, ihes, List.forall_mem_cons, and_assoc]
  case empty => exact ⟨fun _ h => (outsized_set_iff.mp h).elim nofun, fun _ => ⟨_, rfl⟩⟩
  case nil => exact ⟨fun _ => nofun, fun _ => ⟨_, rfl⟩⟩
  case noEntry => exact ⟨fun _ => nofun, fun _ => ⟨_, rfl⟩⟩
  all_goals
    intros
    simp only [shown?]
    exact ⟨fun _ => nofun, fun _ => ⟨_, rfl⟩⟩

theorem shown?_of_outsized {v : Value} (h : v.Outsized) : shown? v = .error overlong := by
  cases hshown : shown? v with
  | ok s => exact absurd h ((exists_shown?_iff v).mp ⟨s, hshown⟩)
  | error e => rw [shown?_refused v e hshown]

/-! ## JSON -/

theorem jsonItems?_texts (names : List String) :
    jsonItems? (names.map text) = .ok (names.map .string) := by
  induction names with
  | nil => rfl
  | cons n names ih =>
    rw [List.map_cons, jsonItems?, ih]
    rfl

theorem exists_toJson?_list {items : List Value} (h : ∀ v ∈ items, ∃ j, v.toJson? = .ok j) :
    ∃ j, (list items).toJson? = .ok j := by
  have hitems : ∃ js, jsonItems? items = .ok js := by
    induction items with
    | nil => exact ⟨[], rfl⟩
    | cons v items ih =>
      obtain ⟨⟨j, hj⟩, hrest⟩ := List.forall_mem_cons.mp h
      obtain ⟨js, hjs⟩ := ih hrest
      rw [jsonItems?, hj, hjs]
      exact ⟨_, rfl⟩
  obtain ⟨js, hjs⟩ := hitems
  rw [toJson?, hjs]
  exact ⟨_, rfl⟩

theorem toJson?_int_of_lt {n : Int} (h : n.natAbs < Nat.pow 10 Numeral.digitLimit) :
    toJson? (int n) = .ok (.number (String.ofList (Numeral.write n))) := by
  rw [toJson?, intText?_of_lt h]
  rfl

/-- A table under texts is written entry by entry. -/
theorem toJson?_map {fields : List (String × Value)} {members : List (String × Json)}
    (h : List.Forall₂ (fun f m => f.1 = m.1 ∧ f.2.toJson? = .ok m.2) fields members) :
    (map (fields.map fun f => (text f.1, f.2))).toJson? = .ok (.object members) := by
  have hmembers : jsonMembers? (fields.map fun f => (text f.1, f.2)) = .ok members := by
    induction h with
    | nil => rfl
    | cons hm _ ih =>
      rw [List.map_cons, jsonMembers?, jsonName, hm.1, hm.2, ih]
      rfl
  rw [toJson?, hmembers]
  rfl

theorem exists_toJson?_map {fields : List (String × Value)}
    (h : ∀ f ∈ fields, ∃ j, f.2.toJson? = .ok j) :
    ∃ j, (map (fields.map fun f => (text f.1, f.2))).toJson? = .ok j := by
  have hmembers : ∃ members, jsonMembers? (fields.map fun f => (text f.1, f.2)) = .ok members := by
    induction fields with
    | nil => exact ⟨[], rfl⟩
    | cons f fields ih =>
      obtain ⟨⟨j, hj⟩, hfields⟩ := List.forall_mem_cons.mp h
      obtain ⟨members, hmembers⟩ := ih hfields
      rw [List.map_cons, jsonMembers?, hj, hmembers]
      exact ⟨_, rfl⟩
  obtain ⟨members, hmembers⟩ := hmembers
  rw [toJson?, hmembers]
  exact ⟨_, rfl⟩

end EntityApi.Value
