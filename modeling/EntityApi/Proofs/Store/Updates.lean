import EntityApi.Proofs.Store.Served
import EntityApi.Schema.Signature

/-! # What an update changes and what it answers

An update overlays one row, the first that holds the key, and answers with what
that row has become (`Updated`). The store is searched twice, once for the row
to overlay and once for the record to answer with. Overlaying leaves the keys as
they are, so both searches end at the same row (`find?_overlay_first`), and what
the store reports of the update is not used. Arguments under names that a
resolver has for itself never get that far. -/
namespace EntityApi

namespace MemoryStore

variable {primaryKey : String} {key : Value} {fields row : Row} {before after : List Row}

/-- The row holds the key, and none before it does. -/
structure First (primaryKey : String) (key : Value) (before : List Row) (row : Row) : Prop where
  holds : (keyOf primaryKey row == key) = true
  none_before : ∀ other ∈ before, (keyOf primaryKey other == key) = false

theorem First.find? (h : First primaryKey key before row) (after : List Row) :
    (before ++ row :: after).find? (keyOf primaryKey · == key) = some row := by
  rw [List.find?_eq_some_iff_append]
  refine ⟨h.holds, before, after, rfl, fun other hother => ?_⟩
  rw [h.none_before other hother]
  rfl

theorem First.overlay (h : First primaryKey key before row) (fields : Row) (after : List Row) :
    overlay primaryKey key fields (before ++ row :: after) =
      (true, before ++ Entries.merge row fields :: after) := by
  obtain ⟨hrow, hbefore⟩ := h
  induction before with
  | nil => simp [MemoryStore.overlay, hrow]
  | cons other before ih =>
    obtain ⟨hother, hbefore⟩ := List.forall_mem_cons.mp hbefore
    simp [MemoryStore.overlay, hother, ih hbefore]

/-- Either no row holds the key, or there is a first that does. -/
theorem first_or_none (primaryKey : String) (key : Value) (rows : List Row) :
    (∀ row ∈ rows, (keyOf primaryKey row == key) = false) ∨
      ∃ before row after, rows = before ++ row :: after ∧ First primaryKey key before row := by
  cases hfind : rows.find? (keyOf primaryKey · == key) with
  | none =>
    refine .inl fun row hrow => ?_
    simpa using List.find?_eq_none.mp hfind row hrow
  | some row =>
    obtain ⟨hrow, before, after, hsplit, hbefore⟩ := List.find?_eq_some_iff_append.mp hfind
    exact .inr ⟨before, row, after, hsplit, hrow, fun other ho => by simpa using hbefore other ho⟩

/-- A row that is overlaid next to its key holds the key as before. -/
theorem First.merge (h : First primaryKey key before row)
    (hf : Entries.get? fields (.text primaryKey) = none) :
    First primaryKey key before (Entries.merge row fields) where
  holds := by rw [keyOf_merge hf, h.holds]
  none_before := h.none_before

end MemoryStore

namespace Resolver

open MemoryStore (access First)

variable {m : Model} {args : Row}

/-- Arguments that a resolver can be called with: every name is a text, none of those that the
resolver has for itself, and given once. -/
structure Callable (args : Row) : Prop where
  named : ∀ e ∈ args, ∃ name, e.1 = .text name ∧ name ∉ reservedNames
  distinct : Entries.Distinct args

theorem Callable.checkNames (h : Callable args) : checkNames args = .ok () := by
  refine Result.forM_eq_ok.mpr fun e he => ?_
  obtain ⟨name, hname, hfree⟩ := h.named e he
  have hunreserved : isReserved (.text name) = false := by
    simp only [isReserved, List.any_eq_false, Value.beq_text, beq_iff_eq]
    exact fun other ho heq => hfree (heq ▸ ho)
  simp [hname, Value.isText, hunreserved]

/-- The record is the row with the arguments written over it, all but the key, which stays. -/
structure Overlays (primaryKey : String) (args row record : Row) : Prop where
  key : Entries.get? record (.text primaryKey) = Entries.get? row (.text primaryKey)
  column : ∀ name, name ≠ .text primaryKey →
    Entries.get? record name = (Entries.get? args name).or (Entries.get? row name)

theorem Callable.overlays (h : Callable args) (primaryKey : String) (row : Row) :
    Overlays primaryKey args row (Entries.merge row (Entries.remove args (.text primaryKey))) := by
  have hkey := Value.identified_text primaryKey
  have hid : ∀ e ∈ Entries.remove args (.text primaryKey), Entries.Identified e.1 := by
    intro e he
    obtain ⟨name, hname, _⟩ := h.named e (List.mem_of_mem_filter he)
    rw [hname]
    exact Value.identified_text name
  have hmerge := Entries.get?_merge_of_distinct hid (h.distinct.filter _) row
  constructor
  · rw [hmerge, Entries.get?_remove_self]
    rfl
  · intro name hname
    rw [hmerge, Entries.get?_remove_of_ne hkey hname]

/-- What an update of the rows answers, and what it leaves of them. -/
inductive Updated (m : Model) (args : Row) : List Row → Result Value → List Row → Prop
  /-- No key is given, or null. -/
  | unkeyed {rows : List Row} (hkey : (Value.field args m.primaryKey.name).isNull = true) :
    Updated m args rows (.error (.invalidArgument (.noKey m.name m.primaryKey.name))) rows
  /-- No row holds the key. -/
  | missing {rows : List Row} {shown : String}
    (hkey : (Value.field args m.primaryKey.name).isNull = false)
    (hrows : ∀ row ∈ rows, (MemoryStore.keyOf m.primaryKey.name row ==
      Value.field args m.primaryKey.name) = false)
    (hshown : (Value.field args m.primaryKey.name).shown? = .ok shown) :
    Updated m args rows (.error (.notFound m.name shown)) rows
  /-- No row holds the key, and the key has no text to name it by. -/
  | unshown {rows : List Row} {e : Failure}
    (hkey : (Value.field args m.primaryKey.name).isNull = false)
    (hrows : ∀ row ∈ rows, (MemoryStore.keyOf m.primaryKey.name row ==
      Value.field args m.primaryKey.name) = false)
    (hshown : (Value.field args m.primaryKey.name).shown? = .error e) :
    Updated m args rows (.error e) rows
  /-- The first row that holds the key is overlaid. -/
  | changed {before after : List Row} {row record : Row}
    (hkey : (Value.field args m.primaryKey.name).isNull = false)
    (hfirst : First m.primaryKey.name (Value.field args m.primaryKey.name) before row)
    (hrecord : Overlays m.primaryKey.name args row record) :
    Updated m args (before ++ row :: after) (.ok (.map record)) (before ++ record :: after)

/-! ## The outcome of an update -/

variable {s : MemoryStore} {journal : Log.Journal}

/-- An update of a record that is not there is looked up in vain and leaves the store alone. -/
theorem run_update_missing (hargs : Callable args)
    (hkey : (Value.field args m.primaryKey.name).isNull = false)
    (hrows : ∀ row ∈ s.rows, (MemoryStore.keyOf s.primaryKey row ==
      Value.field args m.primaryKey.name) = false) :
    (update access m args).run ⟨s, journal⟩ =
      (notFound m (Value.field args m.primaryKey.name), ⟨s, journal⟩) := by
  have hfind : s.find (Value.field args m.primaryKey.name) = none := by
    refine List.find?_eq_none.mpr fun row hrow => ?_
    simp [hrows row hrow]
  rw [run_update hargs.checkNames hkey]
  simp only [MemoryStore.update_of_find_eq_none hfind, hfind]
  rfl

/-- The row that is overlaid is the one that the answer is read from. -/
theorem run_update_first (hargs : Callable args) (hown : s.primaryKey = m.primaryKey.name)
    (hkey : (Value.field args m.primaryKey.name).isNull = false)
    {before after : List Row} {row : Row} (hsplit : s.rows = before ++ row :: after)
    (hfirst : First m.primaryKey.name (Value.field args m.primaryKey.name) before row) :
    (update access m args).run ⟨s, journal⟩ =
      (let record := Entries.merge row (Entries.remove args (.text m.primaryKey.name))
       (.ok (.map record), ⟨{ s with rows := before ++ record :: after }, journal⟩)) := by
  have hmerged := hfirst.merge (Entries.get?_remove_self _ args)
  rw [run_update hargs.checkNames hkey]
  simp only [MemoryStore.update, MemoryStore.find, hown, hsplit, hfirst.overlay, hmerged.find?]
  rfl

/-- **An update changes one record and answers with it.** An update of rows has one outcome in every
memory store that holds them under the key of the entity, whatever the store reports of it. Without a
key, or with one that no row holds, it is refused and the rows stay as they are. Else the first row
that holds the key is overlaid with the other arguments, nulls included, all other rows stay in their
places, and the answer is the row as it is now. -/
theorem update_overlays_first (hargs : Callable args) (rows : List Row) :
    ∃ outcome later, Updated m args rows outcome later ∧
      ∀ (s : MemoryStore) journal, s.primaryKey = m.primaryKey.name → s.rows = rows →
        (update access m args).run ⟨s, journal⟩ =
          (outcome, ⟨{ s with rows := later }, journal⟩) := by
  cases hkey : (Value.field args m.primaryKey.name).isNull with
  | true =>
    refine ⟨_, _, .unkeyed hkey, ?_⟩
    rintro s journal - rfl
    exact run_update_without_key hargs.checkNames hkey
  | false =>
    rcases MemoryStore.first_or_none m.primaryKey.name (Value.field args m.primaryKey.name) rows
      with hnone | ⟨before, row, after, rfl, hfirst⟩
    · cases hshown : (Value.field args m.primaryKey.name).shown? with
      | ok shown =>
        refine ⟨_, _, .missing hkey hnone hshown, ?_⟩
        rintro s journal hown rfl
        rw [run_update_missing hargs hkey (hown ▸ hnone), notFound, hshown]
        rfl
      | error e =>
        refine ⟨_, _, .unshown hkey hnone hshown, ?_⟩
        rintro s journal hown rfl
        rw [run_update_missing hargs hkey (hown ▸ hnone), notFound, hshown]
        rfl
    · refine ⟨_, _, .changed hkey hfirst (hargs.overlays _ row), ?_⟩
      rintro s journal hown hrows
      exact run_update_first hargs hown hkey hrows hfirst

/-- Of two users with one key the first is updated. What is null in the request is null afterwards,
and a user without a key is in nobody's way. -/
theorem update_overlays_first_of_users :
    let m : Model := ⟨"User", .key "id" .int, [], []⟩
    let user (key : Value) (name : String) : Row := [(.text "id", key), (.text "name", .text name)]
    let nobody : Row := [(.text "name", .text "Kay")]
    let args : Row := [(.text "name", .null), (.text "id", .int 1), (.text "age", .int 30)]
    let updated : Row := [(.text "id", .bool true), (.text "name", .null), (.text "age", .int 30)]
    let rows := [nobody, user (.bool true) "Ann", user (.int 1) "Eve"]
    let later := [nobody, updated, user (.int 1) "Eve"]
    Callable args ∧ Updated m args rows (.ok (.map updated)) later ∧
      ∀ reportsCount, (update access m args).run ⟨.ofRows "id" rows true reportsCount, {}⟩ =
        (.ok (.map updated),
          ⟨{ MemoryStore.ofRows "id" rows true reportsCount with rows := later }, {}⟩) := by
  intro m user nobody args updated rows later
  have hargs : Callable args := by
    constructor
    · simp [args, reservedNames]
    · simp [Entries.Distinct, args]
  obtain ⟨outcome, changed, hupdated, hrun⟩ := update_overlays_first (m := m) hargs rows
  have hanswer := hrun (.ofRows "id" rows true true) {} rfl rfl
  have heval : (update access m args).run ⟨.ofRows "id" rows true true, {}⟩ =
      (.ok (.map updated), ⟨{ MemoryStore.ofRows "id" rows true true with rows := later }, {}⟩) := by
    with_unfolding_all rfl
  rw [heval] at hanswer
  cases hanswer
  exact ⟨hargs, hupdated, fun reportsCount => hrun _ {} rfl rfl⟩

/-- An attribute may bear a name that resolvers have for themselves. The schema offers the argument,
and an update that makes use of it is refused. -/
theorem update_refused_for_offered_name :
    let e : Entity := ⟨"Note", [("id", { type := .text "INTEGER", primaryKey := true }),
      ("info", { type := .text "STRING" })], .null⟩
    let s : MemoryStore := .ofRows "id" [[(.text "id", .int 1), (.text "info", .text "old")]] true true
    ∃ m, Model.ofEntity e = .ok m ∧ s.primaryKey = m.primaryKey.name ∧
      "info" ∈ (Schema.argumentsOf m .update).map Schema.Argument.name ∧
      (update access m [(.text "id", .int 1), (.text "info", .text "new")]).run ⟨s, {}⟩ =
        (mishap .badType "resolver() got multiple values for an argument", ⟨s, {}⟩) := by
  intro e s
  let info : Field := ⟨"info", .string, false, true, true, false⟩
  let m : Model := ⟨"Note", .key "id" .int, [.key "id" .int, info], [info]⟩
  exact ⟨m, by with_unfolding_all rfl, rfl, by decide, by with_unfolding_all rfl⟩

end Resolver

end EntityApi
