import EntityApi.Proofs.Introspection
import EntityApi.Proofs.Store.Updates

/-! # Calls that the schema admits

The names of attributes become arguments of operations, next to the names that each
resolver has for itself. A call with arguments that its signature offers, and with all
that the signature requires, is bound and passed on to the store (`Reaches`) just if no
argument bears one of those names; else it is refused, whatever the store
(`call_reaches_store_iff`). -/
namespace EntityApi

/-! ## Arguments of models -/

namespace Model.Describes

variable {e : Entity} {m : Model} (h : Describes e m)

include h

theorem primaryKey_mem : m.primaryKey ∈ m.fields :=
  (List.mem_filter.mp (h.oneKey ▸ List.mem_singleton_self m.primaryKey)).1

/-- No argument of a creation is named like the key. -/
theorem name_ne_of_mem_createFields {f : Field} (hf : f ∈ m.createFields) :
    f.name ≠ m.primaryKey.name := by
  intro hname
  have hmem : f ∈ m.fields := (List.mem_filter.mp (h.createFields ▸ hf)).1
  obtain rfl := List.inj_on_of_nodup_map h.distinct hmem h.primaryKey_mem hname
  exact h.keyless hf

end Model.Describes

namespace Resolver

variable {m : Model} {op : Operation} {args : Row} {σ : Type}

/-- Each argument is one that the signature of the operation offers. -/
def Offered (m : Model) (op : Operation) (args : Row) : Prop :=
  ∀ e ∈ args, ∃ a ∈ Schema.argumentsOf m op, e.1 = .text a.name

/-- No argument bears a name that resolvers have for themselves. -/
def Unreserved (args : Row) : Prop := ∀ e ∈ args, isReserved e.1 = false

/-- Arguments that the signature offers, none of them twice, with a value for each that it requires. -/
structure Admitted (m : Model) (op : Operation) (args : Row) : Prop where
  offered : Offered m op args
  distinct : Entries.Distinct args
  given : ∀ a ∈ Schema.argumentsOf m op, a.required = true →
    (Value.field args a.name).isNull = false

/-- What an operation on a single record asks of its store. -/
inductive Reaches (access : Access σ) (m : Model) (args : Row) : Operation → Step σ Value → Prop where
  | read : Reaches access m args .read (readByKey access m (Value.field args m.primaryKey.name))
  | create : Reaches access m args .create do
      return .map (← access.create args)
  | update : Reaches access m args .update do
      let _ ← access.updateByKey (Value.field args m.primaryKey.name)
        (Entries.remove args (.text m.primaryKey.name))
      readByKey access m (Value.field args m.primaryKey.name)

/-! ## Binding arguments -/

theorem Offered.isText (h : Offered m op args) : ∀ e ∈ args, e.1.isText = true := by
  intro e he
  obtain ⟨a, _, hname⟩ := h e he
  rw [hname]
  rfl

theorem checkNames_of_unreserved (htexts : ∀ e ∈ args, e.1.isText = true) (h : Unreserved args) :
    checkNames args = .ok () := by
  refine Result.forM_eq_ok.mpr fun e he => ?_
  simp [htexts e he, h e he]

/-- One reserved name is enough for a refusal. -/
theorem checkNames_of_reserved (htexts : ∀ e ∈ args, e.1.isText = true) (h : ¬Unreserved args) :
    checkNames args = mishap .badType "resolver() got multiple values for an argument" := by
  induction args with
  | nil => exact absurd nofun h
  | cons e args ih =>
    obtain ⟨name, value⟩ := e
    obtain ⟨htext, htexts⟩ := List.forall_mem_cons.mp htexts
    have hstep : checkNames ((name, value) :: args) =
        if isReserved name then mishap .badType "resolver() got multiple values for an argument"
        else checkNames args := by
      change (if !name.isText then mishap .badType _ else if isReserved name then mishap .badType _
        else .ok ()) >>= (fun _ => checkNames args) = _
      rw [show name.isText = true from htext]
      cases isReserved name <;> rfl
    rw [hstep]
    split
    · rfl
    · rename_i hname
      refine ih htexts fun hrest => h (List.forall_mem_cons.mpr ⟨?_, hrest⟩)
      exact Bool.eq_false_iff.mpr hname

theorem Admitted.key_given (h : Admitted m .update args) (hkey : m.primaryKey ∈ m.fields)
    (hflag : m.primaryKey.primaryKey = true) :
    (Value.field args m.primaryKey.name).isNull = false :=
  h.given _ (List.mem_map_of_mem hkey) hflag

/-- A call that is bound does what it asks of the store, and nothing else. -/
theorem Reaches.run_eq {access : Access σ} {asked : Step σ Value} (hr : Reaches access m args op asked)
    (h : checkNames args = .ok ())
    (hkey : op = .update → (Value.field args m.primaryKey.name).isNull = false) (largest : Value) :
    run access m largest op args = asked := by
  cases hr with
  | read =>
    simp only [run, Resolver.read, h]
    rfl
  | create =>
    simp only [run, Resolver.create, h]
    rfl
  | update =>
    simp only [run, Resolver.update, h, hkey rfl]
    rfl

theorem exists_reaches (access : Access σ) (m : Model) (args : Row) (hop : op ≠ .readMultiple) :
    ∃ asked, Reaches access m args op asked := by
  cases op with
  | readMultiple => exact absurd rfl hop
  | read => exact ⟨_, .read⟩
  | create => exact ⟨_, .create⟩
  | update => exact ⟨_, .update⟩

/-- A record that is created without a key in an empty store is the first. -/
theorem run_create_on_empty {primaryKey : String} (h : checkNames args = .ok ())
    (hkey : Entries.get? args (.text primaryKey) = none) (journal : Log.Journal) :
    (create MemoryStore.access args).run ⟨.empty primaryKey, journal⟩ =
      (let record := args ++ [(.text primaryKey, .int 1)]
       (.ok (.map record),
        ⟨{ MemoryStore.empty primaryKey with rows := [record], nextKey := 2 }, journal⟩)) := by
  have hnull : (MemoryStore.keyOf primaryKey args).isNull = true := by
    rw [MemoryStore.keyOf, Value.field, Value.lookup, hkey]
    rfl
  have hcreate : (MemoryStore.empty primaryKey).create args =
      (args ++ [(.text primaryKey, .int 1)], { MemoryStore.empty primaryKey with
        rows := [args ++ [(.text primaryKey, .int 1)]], nextKey := 2 }) := by
    rw [← MemoryStore.put_key_eq_append hkey]
    simp only [MemoryStore.create, MemoryStore.empty, MemoryStore.ofRows, hnull]
    rfl
  rw [run_create h, hcreate]

/-! ## Main result -/

/-- **An admitted call is bound unless an argument has a name that resolvers have for themselves.** Take
the model of an entity, an operation on a single record, and arguments that its signature offers, with
all that it requires. If no argument has a reserved name, the call passes its arguments on to the
store, whatever that is; a creation in an empty memory store answers with the arguments and the first
key. If an argument has such a name, the call is refused and nothing happens in the store. -/
theorem admitted_call_reaches_store {e : Entity} (hn : (Entries.keys e.attributes).Nodup)
    (hm : Model.ofEntity e = .ok m) (hargs : Admitted m op args) (hop : op ≠ .readMultiple) :
    (Unreserved args →
      (∀ (σ : Type) (access : Access σ) largest, ∃ asked, Reaches access m args op asked ∧
        run access m largest op args = asked) ∧
      (op = .create → ∀ largest journal,
        let record := args ++ [(.text m.primaryKey.name, .int 1)]
        (run MemoryStore.access m largest .create args).run
            ⟨.empty m.primaryKey.name, journal⟩ =
          (.ok (.map record), ⟨{ MemoryStore.empty m.primaryKey.name with
            rows := [record], nextKey := 2 }, journal⟩))) ∧
    (¬Unreserved args → ∀ (σ : Type) (access : Access σ) largest session,
      (run access m largest op args).run session =
        (mishap .badType "resolver() got multiple values for an argument", session)) := by
  have hdescribes := Model.describes_of_ofEntity hn hm
  have htexts := hargs.offered.isText
  refine ⟨fun hfree => ⟨fun σ access largest => ?_, ?_⟩, fun hreserved σ access largest session => ?_⟩
  · obtain ⟨asked, hasked⟩ := exists_reaches access m args hop
    refine ⟨asked, hasked, hasked.run_eq (checkNames_of_unreserved htexts hfree) ?_ largest⟩
    rintro rfl
    exact hargs.key_given hdescribes.primaryKey_mem (hdescribes.key ▸ rfl)
  · rintro rfl largest journal
    refine run_create_on_empty (checkNames_of_unreserved htexts hfree) ?_ journal
    rw [Entries.get?_eq_none_iff_ne (Value.identified_text _)]
    intro entry hentry hkey
    obtain ⟨a, ha, hname⟩ := hargs.offered entry hentry
    obtain ⟨f, hf, rfl⟩ := List.mem_map.mp ha
    rw [hkey] at hname
    exact hdescribes.name_ne_of_mem_createFields hf (Value.text.inj hname).symm
  · exact run_of_checkNames_error (checkNames_of_reserved htexts hreserved) hop

/-- A user is created by name, as the first one. -/
theorem admitted_call_reaches_store_of_user :
    let e : Entity := ⟨"User", [("name", { type := .text "STRING", allowNull := false }),
      ("age", { type := .text "INTEGER" })], .null⟩
    let args : Row := [(.text "name", .text "Ann")]
    let record : Row := [(.text "name", .text "Ann"), (.text "id", .int 1)]
    ∃ m, Model.ofEntity e = .ok m ∧ Admitted m .create args ∧ Unreserved args ∧
      (run MemoryStore.access m .null .create args).run ⟨.empty "id", {}⟩ =
        (.ok (.map record), ⟨{ MemoryStore.empty "id" with rows := [record], nextKey := 2 }, {}⟩) := by
  intro e args record
  let name : Field := ⟨"name", .string, true, true, true, false⟩
  let age : Field := ⟨"age", .int, false, true, true, false⟩
  let m : Model := ⟨"User", .key "id" .int, [.key "id" .int, name, age], [name, age]⟩
  have hm : Model.ofEntity e = .ok m := by with_unfolding_all rfl
  have hargs : Admitted m .create args := by
    constructor
    · simp [Offered, args, m, name, age, Schema.argumentsOf, Schema.Argument.ofField]
    · simp [Entries.Distinct, args]
    · simp [args, m, name, age, Schema.argumentsOf, Schema.Argument.ofField, Value.field,
        Value.lookup, Entries.get?, Value.isNull]
  have hfree : Unreserved args := List.forall_mem_singleton.mpr (by decide +kernel)
  have hn : (Entries.keys e.attributes).Nodup := by decide
  obtain ⟨hreached, _⟩ := admitted_call_reaches_store hn hm hargs (by decide)
  exact ⟨m, hm, hargs, hfree, (hreached hfree).2 rfl .null {}⟩

/-- An attribute may bear a name that resolvers have for themselves. A creation that makes use of it
is admitted by the schema, and refused. -/
theorem creation_refused_for_offered_name :
    let e : Entity := ⟨"Note", [("id", { type := .text "INTEGER", primaryKey := true }),
      ("info", { type := .text "STRING" })], .null⟩
    let args : Row := [(.text "info", .text "new")]
    ∃ m, Model.ofEntity e = .ok m ∧ m.primaryKey.name = "id" ∧ Admitted m .create args ∧
      (run MemoryStore.access m .null .create args).run ⟨.empty "id", {}⟩ =
        (mishap .badType "resolver() got multiple values for an argument", ⟨.empty "id", {}⟩) := by
  intro e args
  let info : Field := ⟨"info", .string, false, true, true, false⟩
  let m : Model := ⟨"Note", .key "id" .int, [.key "id" .int, info], [info]⟩
  refine ⟨m, by with_unfolding_all rfl, rfl, ⟨?_, ?_, ?_⟩, by with_unfolding_all rfl⟩
  · simp [Offered, args, m, info, Schema.argumentsOf, Schema.Argument.ofField]
  · simp [Entries.Distinct, args]
  · simp [m, info, Schema.argumentsOf, Schema.Argument.ofField]

end Resolver

end EntityApi
