import EntityApi.Proofs.OperationLists
import EntityApi.Proofs.Schema.Headings
import EntityApi.Proofs.Tables.Algebra

/-! # One rule for everything that overrides

Custom signatures and custom resolvers are merged into the generated ones by the same
rule, entry by entry. Since merging is associative, it makes no difference that the
signatures of each extension are collected in a table of their own first
(`Schema.mergeSignatures_eq`): only their lines count, in the order in which they come,
and what is merged is told by them (`Schema.overridden_merge`). Custom resolvers that
are applied in two groups, one after the other, are applied as one
(`Api.withCustom_append`). -/
namespace EntityApi

namespace Schema

variable {root : Root} {generated entries merged : List (String × String)}
  {extensions regrouped : List Extension} {e : Failure}

/-- Each line with the name that it begins with. -/
abbrev Entitled (lines : List String) (entries : List (String × String)) : Prop :=
  List.Forall₂ (fun line e => Begins line e.1 ∧ e.2 = line) lines entries

/-- Extension by extension or line by line is the same. -/
theorem mergeSignatures_eq (root : Root) (generated : List (String × String))
    (extensions : List Extension) : mergeSignatures root generated extensions =
      (do return Entries.merge generated (← (linesUnder root extensions).mapM named)) := by
  induction extensions generalizing generated with
  | nil => rfl
  | cons ext extensions ih =>
    have hlines : linesUnder root (ext :: extensions) =
        ext.signatures root ++ linesUnder root extensions := List.flatMap_cons
    rw [mergeSignatures, hlines, List.mapM_append]
    simp only [ih, Entries.merge_ofList, bind_assoc, pure_bind, Entries.merge_append]

theorem named_eq_ok_iff {line : String} {e : String × String} :
    named line = .ok e ↔ Begins line e.1 ∧ e.2 = line := by
  rw [named_eq_ok, signatureName_eq_ok, eq_comm (a := line)]

/-- What is merged from the entries: the names that there were keep their places, new ones follow
where they first appear, and the last entry of a name counts. -/
structure Overridden (generated entries merged : List (String × String)) : Prop where
  names : Entries.keys merged = Entries.keys generated ++
    ((Entries.keys entries).filter fun n => decide (n ∉ Entries.keys generated)).eraseDups
  last : ∀ n, Entries.get? merged n =
    (Entries.get? entries.reverse n).or (Entries.get? generated n)

theorem overridden_merge (h : (Entries.keys generated).Nodup) (entries : List (String × String)) :
    Overridden generated entries (Entries.merge generated entries) where
  names := by
    have hnew : (Entries.keys entries).removeAll (Entries.keys generated) =
        (Entries.keys entries).filter fun n => decide (n ∉ Entries.keys generated) := by
      unfold List.removeAll
      simp
    rw [Entries.keys_merge h, List.eraseDups_append, Entries.eraseDups_of_nodup h, hnew]
  last := Entries.get?_merge generated entries

/-- What is merged are the lines, one after another, each under the name that it begins with. -/
theorem mergeSignatures_eq_ok_iff : mergeSignatures root generated extensions = .ok merged ↔
    ∃ entries, Entitled (linesUnder root extensions) entries ∧
      merged = Entries.merge generated entries := by
  rw [mergeSignatures_eq, Result.bind_eq_ok]
  simp only [Result.mapM_eq_ok, named_eq_ok_iff, pure, Except.pure, Except.ok.injEq]
  exact exists_congr fun _ => and_congr_right fun _ => eq_comm

/-- Lines that come in the same order are merged alike, however they are grouped. -/
theorem mergeSignatures_congr (h : linesUnder root regrouped = linesUnder root extensions)
    (generated : List (String × String)) :
    mergeSignatures root generated regrouped = mergeSignatures root generated extensions := by
  rw [mergeSignatures_eq, mergeSignatures_eq, h]

/-- The merge is refused for the first line that begins with no name. -/
theorem mergeSignatures_eq_error_iff : mergeSignatures root generated extensions = .error e ↔
    ∃ line, Result.FirstOf (fun line => ∀ n, ¬Begins line n) (linesUnder root extensions) line ∧
      e = .unnamedSignature line := by
  have hnameless : Nameless = fun line => ∀ n, ¬Begins line n :=
    funext fun _ => propext nameless_iff
  rw [mergeSignatures_eq_error, firstRefused_named, hnameless]

/-- That there is such a line is what refuses the merge. -/
theorem mergeSignatures_refused_iff :
    (∃ e, mergeSignatures root generated extensions = .error e ∧ e.isMalformed = true) ↔
      ∃ line ∈ linesUnder root extensions, ∀ n, ¬Begins line n := by
  constructor
  · rintro ⟨e, hrefused, _⟩
    obtain ⟨line, ⟨before, after, hsplit, _, hline⟩, _⟩ := mergeSignatures_eq_error_iff.mp hrefused
    exact ⟨line, hsplit ▸ List.mem_append_right before List.mem_cons_self, hline⟩
  · rintro ⟨line, hmem, hline⟩
    cases hr : mergeSignatures root generated extensions with
    | error e =>
      obtain ⟨_, _, rfl⟩ := mergeSignatures_eq_error_iff.mp hr
      exact ⟨_, rfl, rfl⟩
    | ok merged =>
      obtain ⟨entries, hentries, _⟩ := mergeSignatures_eq_ok_iff.mp hr
      obtain ⟨e, _, hbegins, _⟩ := Result.exists_of_mem_left hentries hmem
      exact absurd hbegins (hline e.1)

end Schema

namespace Api

variable {σ : Type}

theorem overlay_append (root : Root) (first second : List CustomResolvers)
    (table : List (String × Handler)) :
    overlay root (first ++ second) table = overlay root second (overlay root first table) := by
  unfold overlay
  rw [List.map_append]
  exact List.foldl_append

theorem withCustom_append (api : Api σ) (first second : List CustomResolvers) :
    api.withCustom (first ++ second) = (api.withCustom first).withCustom second := by
  unfold withCustom
  rw [overlay_append, overlay_append]

/-- The tables of two groups are read in a row and applied in a row. -/
theorem mapM_withCustom_append (api : Api σ) (first second : List (List (Value × Value))) :
    (do return api.withCustom (← (first ++ second).mapM CustomResolvers.ofMap)) =
      (do
        let applied := api.withCustom (← first.mapM CustomResolvers.ofMap)
        return applied.withCustom (← second.mapM CustomResolvers.ofMap) : Result (Api σ)) := by
  rw [List.mapM_append]
  simp only [bind_assoc, pure_bind, withCustom_append]

end Api

open Entries in
/-- **One rule holds for everything that overrides.** Merging tables is associative and idempotent,
and the empty table changes nothing, the order of the keys included. Custom signatures are merged
line by line, whatever extension or block a line is from, under the names that the lines begin with,
and are malformed just if a line begins with no name. Custom resolvers in two groups are applied
group after group, under either root type. -/
theorem overrides_by_one_rule :
    (∀ (κ α : Type) [BEq κ] [EquivBEq κ] (generated custom later : List (κ × α)),
      Distinct generated → Distinct custom →
        Distinct (merge generated custom) ∧
        merge (merge generated custom) later = merge generated (merge custom later) ∧
        merge (merge generated custom) custom = merge generated custom ∧
        merge generated [] = generated ∧ merge [] generated = generated) ∧
    (∀ (root : Root) (generated : List (String × String)) (extensions : List Schema.Extension),
      (keys generated).Nodup →
        (∀ merged, Schema.mergeSignatures root generated extensions = .ok merged ↔
          ∃ entries, Schema.Entitled (Schema.linesUnder root extensions) entries ∧
            merged = entries.foldl (fun es e => put es e.1 e.2) generated ∧
            Schema.Overridden generated entries merged) ∧
        (∀ e, Schema.mergeSignatures root generated extensions = .error e ↔
          ∃ line, Result.FirstOf (fun line => ∀ n, ¬Schema.Begins line n)
            (Schema.linesUnder root extensions) line ∧ e = .unnamedSignature line) ∧
        ((∃ e, Schema.mergeSignatures root generated extensions = .error e ∧
            e.isMalformed = true) ↔
          ∃ line ∈ Schema.linesUnder root extensions, ∀ n, ¬Schema.Begins line n) ∧
        ∀ regrouped, Schema.linesUnder root regrouped = Schema.linesUnder root extensions →
          Schema.mergeSignatures root generated regrouped =
            Schema.mergeSignatures root generated extensions) ∧
    (∀ (root : Root) (table : List (String × Handler)) (first second : List CustomResolvers),
      Api.overlay root (first ++ second) table =
        Api.overlay root second (Api.overlay root first table)) ∧
    ∀ (σ : Type) (api : Api σ) (first second : List (List (Value × Value))),
      (do return api.withCustom (← (first ++ second).mapM CustomResolvers.ofMap)) =
        (do
          let applied := api.withCustom (← first.mapM CustomResolvers.ofMap)
          return applied.withCustom (← second.mapM CustomResolvers.ofMap) : Result (Api σ)) := by
  refine ⟨?_, ?_, fun root table first second => Api.overlay_append root first second table,
    @Api.mapM_withCustom_append⟩
  · intro κ α _ _ generated custom later hgenerated hcustom
    exact ⟨distinct_merge hgenerated custom, merge_assoc hcustom generated later,
      merge_merge_self hcustom generated, rfl, ofList_of_distinct hgenerated⟩
  · intro root generated extensions hnodup
    refine ⟨fun merged => ?_, fun e => Schema.mergeSignatures_eq_error_iff,
      Schema.mergeSignatures_refused_iff, fun regrouped h => Schema.mergeSignatures_congr h _⟩
    rw [Schema.mergeSignatures_eq_ok_iff]
    refine exists_congr fun entries => and_congr_right fun _ => ?_
    constructor
    · rintro rfl
      exact ⟨rfl, Schema.overridden_merge hnodup entries⟩
    · rintro ⟨rfl, _⟩
      rfl

open Entries in
theorem overrides_by_one_rule_of_users :
    let generated := [("read_User", "read_User(id: Int!): User")]
    let custom := [("read_User", "read_User(name: String!): User"), ("ping", "ping: Boolean")]
    let extensions : List Schema.Extension := [
      { read := "read_User(email: String!): User" },
      { read := "read_User(name: String!): User\nping: Boolean" }]
    let regrouped : List Schema.Extension := [
      { read := "read_User(email: String!): User\n\n  read_User(name: String!): User"
        readMultiple := "ping: Boolean" }]
    Distinct generated ∧ Distinct custom ∧ (keys generated).Nodup ∧
      Schema.linesUnder .query regrouped = Schema.linesUnder .query extensions ∧
      merge (merge generated custom) custom = custom ∧
      Schema.mergeSignatures .query generated regrouped = .ok custom := by
  intro generated custom extensions regrouped
  have hgenerated : Distinct generated := List.pairwise_singleton _ _
  have hcustom : Distinct custom := by
    unfold Distinct
    decide
  have hnodup : (keys generated).Nodup := List.pairwise_singleton _ _
  have hlines : Schema.linesUnder .query regrouped = Schema.linesUnder .query extensions := by
    decide +kernel
  obtain ⟨halgebra, hsignatures, -⟩ := overrides_by_one_rule
  obtain ⟨-, -, htwice, -⟩ := halgebra String String generated custom [] hgenerated hcustom
  obtain ⟨-, -, -, hregrouped⟩ := hsignatures .query generated extensions hnodup
  refine ⟨hgenerated, hcustom, hnodup, hlines, htwice, ?_⟩
  rw [hregrouped regrouped hlines]
  decide +kernel

end EntityApi
