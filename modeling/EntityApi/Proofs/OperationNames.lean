import EntityApi.Operation

/-! # When two operations have one name

An operation is named for its kind and its entity. The words for the kinds are
not prefix-free: `read_` and `read_multiple_` begin alike, so that reading an
entity `multiple_E` is named like listing an entity `E`. There is no other clash
(`nameFor_eq_iff`), and under one root type the names of all operations are
distinct unless that one occurs (`nodup_namesUnder`). -/
namespace EntityApi.Operation

/-- What the name of an entity must begin with to be taken for a listing. -/
def listingPart : String := "multiple_"

theorem nameFor_eq_iff {op op' : Operation} {a b : String} :
    op.nameFor a = op'.nameFor b ↔ (op = op' ∧ a = b) ∨
      (op = .read ∧ op' = .readMultiple ∧ a = listingPart ++ b) ∨
      (op = .readMultiple ∧ op' = .read ∧ b = listingPart ++ a) := by
  rw [← String.toList_inj, ← String.toList_inj, ← String.toList_inj, ← String.toList_inj]
  cases op <;> cases op' <;> simp [nameFor, label, listingPart, String.toList_append]
  exact eq_comm

theorem nameFor_read_listingPart (entity : String) :
    read.nameFor (listingPart ++ entity) = readMultiple.nameFor entity :=
  nameFor_eq_iff.mpr (.inr (.inl ⟨rfl, rfl, rfl⟩))

/-- The two operations of one name stand under one root type. -/
theorem root_eq_of_nameFor {op op' : Operation} {a b : String} (h : op.nameFor a = op'.nameFor b) :
    op.root = op'.root := by
  rcases nameFor_eq_iff.mp h with ⟨rfl, _⟩ | ⟨rfl, rfl, _⟩ | ⟨rfl, rfl, _⟩ <;> rfl

theorem mem_ofRoot {op : Operation} {root : Root} : op ∈ ofRoot root ↔ op.root = root := by
  cases op <;> cases root <;> decide

/-- No entity is named for the listing of another. -/
def Unshadowed (entities : List String) : Prop :=
  ∀ a ∈ entities, ∀ b ∈ entities, b ≠ listingPart ++ a

theorem Unshadowed.nameFor_inj {entities : List String} (h : Unshadowed entities)
    {op op' : Operation} {a b : String} (ha : a ∈ entities) (hb : b ∈ entities)
    (he : op.nameFor a = op'.nameFor b) : op = op' ∧ a = b := by
  rcases nameFor_eq_iff.mp he with hs | ⟨_, _, hab⟩ | ⟨_, _, hba⟩
  · exact hs
  · exact absurd hab (h b hb a ha)
  · exact absurd hba (h a ha b hb)

/-- The names of all operations of the entities under one root type. -/
def namesUnder (root : Root) (entities : List String) : List String :=
  entities.flatMap fun e => (ofRoot root).map (·.nameFor e)

theorem mem_namesUnder {root : Root} {entities : List String} {name : String} :
    name ∈ namesUnder root entities ↔
      ∃ e ∈ entities, ∃ op : Operation, op.root = root ∧ op.nameFor e = name := by
  simp only [namesUnder, List.mem_flatMap, List.mem_map, mem_ofRoot]

theorem length_namesUnder (root : Root) (entities : List String) :
    (namesUnder root entities).length = 2 * entities.length := by
  induction entities with
  | nil => rfl
  | cons e entities ih =>
    have hroot : (ofRoot root).length = 2 := by cases root <;> rfl
    simp only [namesUnder, List.flatMap_cons, List.length_append, List.length_map] at ih ⊢
    rw [ih, hroot, List.length_cons]
    omega

theorem nodup_own_names (root : Root) (entity : String) :
    ((ofRoot root).map (·.nameFor entity)).Nodup := by
  have hself : entity ≠ listingPart ++ entity := by
    intro he
    have hlen := congrArg (fun s => s.toList.length) he
    simp only [listingPart, String.toList_append, List.length_append] at hlen
    have : "multiple_".toList.length = 9 := by decide
    omega
  have hone : Unshadowed [entity] := by simpa [Unshadowed] using hself
  apply List.Pairwise.map (R := fun op op' => op ≠ op')
  · intro op op' hne he
    exact hne (hone.nameFor_inj (by simp) (by simp) he).1
  · cases root <;> decide

/-- Distinct entities have distinct operations under a root type where no two entities share one. -/
theorem nodup_namesUnder_of_inj {root : Root} {entities : List String} (hn : entities.Nodup)
    (hinj : ∀ a ∈ entities, ∀ b ∈ entities, ∀ op op' : Operation, op.root = root → op'.root = root →
      op.nameFor a = op'.nameFor b → a = b) : (namesUnder root entities).Nodup := by
  unfold namesUnder
  refine List.pairwise_flatMap.mpr ⟨fun e _ => nodup_own_names root e, ?_⟩
  refine List.Pairwise.imp_of_mem ?_ hn
  intro a b ha hb hne x hx y hy hxy
  obtain ⟨op, hop, rfl⟩ := List.mem_map.mp hx
  obtain ⟨op', hop', rfl⟩ := List.mem_map.mp hy
  exact hne (hinj a ha b hb op op' (mem_ofRoot.mp hop) (mem_ofRoot.mp hop') hxy)

/-- Distinct entities, none named for the listing of another, have distinct
operations. -/
theorem nodup_namesUnder {root : Root} {entities : List String} (hn : entities.Nodup)
    (hu : Unshadowed entities) : (namesUnder root entities).Nodup :=
  nodup_namesUnder_of_inj hn fun _ ha _ hb _ _ _ _ h => (hu.nameFor_inj ha hb h).2

/-- Only queries of distinct entities can share a name. -/
theorem nodup_mutations {entities : List String} (hn : entities.Nodup) :
    (namesUnder .mutation entities).Nodup := by
  refine nodup_namesUnder_of_inj hn fun a _ b _ op op' hop hop' h => ?_
  rcases nameFor_eq_iff.mp h with ⟨_, hab⟩ | ⟨rfl, _⟩ | ⟨rfl, _⟩
  · exact hab
  · cases hop
  · cases hop

end EntityApi.Operation
