import EntityApi.Proofs.Sql.Clauses
import EntityApi.Proofs.Tables

/-! # Placeholders

The placeholders of a clause carry the number of its condition (`numberOf_of_mem_binds`),
so those of all clauses of a statement differ (`nodup_placeholders`) and each stands
for the value that its own clause gives it (`bound_of_mem`). -/
namespace EntityApi

namespace Sql

/-- The digits after the first two characters of a placeholder, as a number. -/
def numberOf (name : String) : Nat :=
  Nat.ofDigitChars 10 ((name.toList.drop 2).takeWhile Char.isDigit) 0

theorem toList_placeAt (i : Nat) : (placeAt i).toList = ['p', '_'] ++ Nat.toDigits 10 i := by
  simp [placeAt]

theorem numberOf_placeAt_append (i : Nat) {tail : String}
    (h : tail.toList.takeWhile Char.isDigit = []) : numberOf (placeAt i ++ tail) = i := by
  have hdigits : ∀ c ∈ Nat.toDigits 10 i, c.isDigit = true := fun c hc =>
    Nat.isDigit_of_mem_toDigits (by decide) (by decide) hc
  unfold numberOf
  rw [String.toList_append, toList_placeAt, List.append_assoc]
  change Nat.ofDigitChars 10 ((Nat.toDigits 10 i ++ tail.toList).takeWhile Char.isDigit) 0 = i
  rw [List.takeWhile_append_of_pos hdigits, h, List.append_nil,
    Nat.ofDigitChars_toDigits (by decide) (by decide)]

/-- The placeholders of a clause have the number of its condition. -/
theorem numberOf_of_mem_binds {comparison : Comparison} {i : Nat} {name : String}
    (h : name ∈ Clause.binds comparison (placeAt i)) : numberOf name = i := by
  have hplace : numberOf (placeAt i) = i := by
    have hempty : "".toList.takeWhile Char.isDigit = [] := rfl
    simpa using numberOf_placeAt_append i hempty
  cases comparison with
  | between =>
    rcases List.mem_pair.mp h with rfl | rfl
    · exact numberOf_placeAt_append i (by decide)
    · exact numberOf_placeAt_append i (by decide)
  | _ => rw [List.mem_singleton.mp h, hplace]

theorem nodup_binds (comparison : Comparison) (place : String) :
    (Clause.binds comparison place).Nodup := by
  cases comparison <;> simp [Clause.binds]

theorem keys_zip_sublist (names : List String) (values : List Value) :
    (Entries.keys (names.zip values)).Sublist names := by
  induction names generalizing values with
  | nil => exact .slnil
  | cons name names ih =>
    cases values with
    | nil => exact List.nil_sublist _
    | cons value values => exact (ih values).cons_cons name

variable {start : Nat} {conditions : List Condition} {clauses : List Clause}

/-- The placeholders of clauses that are numbered from `start` differ, and have numbers from there. -/
theorem placeholders_of_clausesFrom (h : clausesFrom start conditions = .ok clauses) :
    (Entries.keys (clauses.flatMap Clause.params)).Nodup ∧
      ∀ name ∈ Entries.keys (clauses.flatMap Clause.params), start ≤ numberOf name := by
  induction conditions generalizing start clauses with
  | nil =>
    cases h
    exact ⟨.nil, nofun⟩
  | cons c conditions ih =>
    obtain ⟨clause, hclause, h⟩ := Result.bind_eq_ok.mp h
    obtain ⟨rest, hrest, h⟩ := Result.bind_eq_ok.mp h
    cases h
    obtain ⟨hnodup, hnumbers⟩ := ih hrest
    obtain ⟨_, _, values, _, _, rfl⟩ := Clause.ofCondition_eq_ok.mp hclause
    have hsublist := keys_zip_sublist (Clause.binds c.comparison (placeAt start)) values
    have hnumber : ∀ name ∈ Entries.keys
        ((Clause.binds c.comparison (placeAt start)).zip values), numberOf name = start :=
      fun name hname => numberOf_of_mem_binds (hsublist.subset hname)
    simp only [List.flatMap_cons, Entries.keys_append]
    refine ⟨List.nodup_append.mpr ⟨hsublist.nodup (nodup_binds _ _), hnodup, ?_⟩, ?_⟩
    · rintro name hname _ hlater rfl
      have hlater := hnumbers name hlater
      rw [hnumber name hname] at hlater
      exact absurd hlater (Nat.not_succ_le_self start)
    · intro name hname
      rcases List.mem_append.mp hname with hname | hname
      · exact Nat.le_of_eq (hnumber name hname).symm
      · exact Nat.le_of_succ_le (hnumbers name hname)

/-- Each placeholder stands for the value that its clause gives it. -/
theorem bound_of_mem (h : clausesFrom start conditions = .ok clauses) {clause : Clause}
    (hclause : clause ∈ clauses) {name : String} {v : Value} (hv : (name, v) ∈ clause.params) :
    Entries.get? (clauses.flatMap Clause.params) name = some v :=
  (Entries.get?_eq_some_iff (placeholders_of_clausesFrom h).1).mpr
    (List.mem_flatMap.mpr ⟨clause, hclause, hv⟩)

end Sql

end EntityApi
