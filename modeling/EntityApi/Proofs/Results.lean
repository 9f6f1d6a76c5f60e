import EntityApi.Failure
import Mathlib.Data.List.Forall2

/-! # What an outcome says of the steps behind it

An operation that may be refused and still succeeds has had every one of its
steps succeed. These are the two forms in which that is used: for two steps in
a row, and for one step on each element of a list. An operation that is refused
is refused by the first step that is (`FirstRefused`). -/
namespace EntityApi.Result

variable {α β : Type}

@[simp] theorem refuse_bind (e : Failure) (f : α → Result β) :
    ((refuse e : Result α) >>= f) = refuse e := rfl

@[simp] theorem ok_bind (a : α) (f : α → Result β) : ((.ok a : Result α) >>= f) = f a := rfl

@[simp] theorem refuse_ne_ok {e : Failure} {a : α} : (refuse e : Result α) ≠ .ok a := nofun

theorem bind_eq_ok {x : Result α} {f : α → Result β} {b : β} :
    (x >>= f) = .ok b ↔ ∃ a, x = .ok a ∧ f a = .ok b := by
  cases x with
  | error e => simp [bind, Except.bind]
  | ok a => simp [bind, Except.bind]

theorem bind_eq_error {x : Result α} {f : α → Result β} {e : Failure} :
    (x >>= f) = .error e ↔ x = .error e ∨ ∃ a, x = .ok a ∧ f a = .error e := by
  cases x with
  | error e' => simp [bind, Except.bind]
  | ok a => simp [bind, Except.bind]

/-- A last step that cannot fail succeeds just if what it is given does. -/
theorem exists_bind_pure {x : Result α} {f : α → β} :
    (∃ b, (x >>= fun a => pure (f a)) = .ok b) ↔ ∃ a, x = .ok a := by
  simp only [bind_eq_ok]
  exact ⟨fun ⟨_, a, ha, _⟩ => ⟨a, ha⟩, fun ⟨a, ha⟩ => ⟨f a, a, ha, rfl⟩⟩

/-- Two steps succeed if both do, where the second does or not whatever it is given. -/
theorem exists_bind_iff {x : Result α} {f : α → Result β} {p : Prop}
    (h : ∀ a, (∃ b, f a = .ok b) ↔ p) : (∃ b, (x >>= f) = .ok b) ↔ (∃ a, x = .ok a) ∧ p := by
  simp only [bind_eq_ok]
  constructor
  · rintro ⟨b, a, ha, hb⟩
    exact ⟨⟨a, ha⟩, (h a).mp ⟨b, hb⟩⟩
  · rintro ⟨⟨a, ha⟩, hp⟩
    obtain ⟨b, hb⟩ := (h a).mpr hp
    exact ⟨b, a, ha, hb⟩

theorem exists_ok_iff_not_error {x : Result α} : (∃ a, x = .ok a) ↔ ∀ e, x ≠ .error e := by
  cases x with
  | ok a => simp
  | error e => simp

theorem exists_of_isOk {x : Result α} (h : x.isOk = true) : ∃ a, x = .ok a := by
  cases x with
  | error e => cases h
  | ok a => exact ⟨a, rfl⟩

theorem mapM_eq_ok {f : α → Result β} {as : List α} {bs : List β} :
    as.mapM f = .ok bs ↔ List.Forall₂ (fun a b => f a = .ok b) as bs := by
  induction as generalizing bs with
  | nil => cases bs <;> simp [pure, Except.pure]
  | cons a as ih =>
    rw [List.mapM_cons, bind_eq_ok]
    simp only [bind_eq_ok, ih]
    constructor
    · rintro ⟨b, hb, cs, hcs, h⟩
      cases h
      exact .cons hb hcs
    · intro h
      cases h with
      | cons hb hcs => exact ⟨_, hb, _, hcs, rfl⟩

/-- Two traversals in a row succeed if one that takes both steps on each element does. -/
theorem mapM_bind_eq_ok {γ : Type} {f : α → Result β} {g : β → Result γ} {as : List α}
    {cs : List γ} : (as.mapM f >>= fun bs => bs.mapM g) = .ok cs ↔
      List.Forall₂ (fun a c => (f a >>= g) = .ok c) as cs := by
  simp only [bind_eq_ok, mapM_eq_ok]
  induction as generalizing cs with
  | nil =>
    constructor
    · rintro ⟨_, ⟨⟩, ⟨⟩⟩
      exact .nil
    · rintro ⟨⟩
      exact ⟨[], .nil, .nil⟩
  | cons a as ih =>
    constructor
    · rintro ⟨_, hb, hc⟩
      obtain _ | ⟨hb, hbs⟩ := hb
      obtain _ | ⟨hc, hcs⟩ := hc
      exact .cons ⟨_, hb, hc⟩ (ih.mp ⟨_, hbs, hcs⟩)
    · rintro (_ | ⟨⟨b, hb, hc⟩, hcs⟩)
      obtain ⟨bs, hbs, hcs⟩ := ih.mpr hcs
      exact ⟨b :: bs, .cons hb hbs, .cons hc hcs⟩

theorem forM_eq_ok {f : α → Result Unit} {as : List α} :
    as.forM f = .ok () ↔ ∀ a ∈ as, f a = .ok () := by
  induction as with
  | nil => exact ⟨nofun, fun _ => rfl⟩
  | cons a as ih =>
    rw [List.forall_mem_cons, ← ih]
    change (f a >>= fun _ => as.forM f) = _ ↔ _
    rw [bind_eq_ok]
    exact ⟨fun ⟨⟨⟩, ha, has⟩ => ⟨ha, has⟩, fun ⟨ha, has⟩ => ⟨(), ha, has⟩⟩

theorem getElem?_of_forall₂ {R : α → β → Prop} {as : List α} {bs : List β}
    (h : List.Forall₂ R as bs) {i : Nat} {a : α} (ha : as[i]? = some a) :
    ∃ b, bs[i]? = some b ∧ R a b := by
  induction h generalizing i with
  | nil => simp at ha
  | cons hab _ ih =>
    cases i with
    | zero =>
      simp only [List.getElem?_cons_zero, Option.some.injEq] at ha ⊢
      exact ⟨_, rfl, ha ▸ hab⟩
    | succ i =>
      simp only [List.getElem?_cons_succ] at ha ⊢
      exact ih ha

theorem exists_of_mem_left {R : α → β → Prop} {as : List α} {bs : List β}
    (h : List.Forall₂ R as bs) {a : α} (ha : a ∈ as) : ∃ b ∈ bs, R a b := by
  obtain ⟨i, hi⟩ := List.mem_iff_getElem?.mp ha
  obtain ⟨b, hb, hr⟩ := getElem?_of_forall₂ h hi
  exact ⟨b, List.mem_of_getElem? hb, hr⟩

theorem exists_of_mem_right {R : α → β → Prop} {as : List α} {bs : List β}
    (h : List.Forall₂ R as bs) {b : β} (hb : b ∈ bs) : ∃ a ∈ as, R a b :=
  exists_of_mem_left h.flip hb

/-- Where two relations agree on the members of the list, they relate it to the same lists. -/
theorem forall₂_congr_of_mem {R S : α → β → Prop} {as : List α} {bs : List β}
    (h : ∀ a ∈ as, ∀ b, R a b ↔ S a b) : List.Forall₂ R as bs ↔ List.Forall₂ S as bs := by
  induction as generalizing bs with
  | nil => rw [List.forall₂_nil_left_iff, List.forall₂_nil_left_iff]
  | cons a as ih =>
    obtain ⟨ha, has⟩ := List.forall_mem_cons.mp h
    simp only [List.forall₂_cons_left_iff, ha, ih has]

/-! ## Refusals -/

/-- Some element of the list is refused for that cause, and all before it are accepted. -/
def FirstRefused (f : α → Result β) (as : List α) (e : Failure) : Prop :=
  ∃ before a after, as = before ++ a :: after ∧ (∀ x ∈ before, ∃ b, f x = .ok b) ∧ f a = .error e

variable {f : α → Result β} {as : List α} {e : Failure}

theorem not_firstRefused_nil : ¬FirstRefused f [] e := by
  rintro ⟨before, a, after, h, -⟩
  cases before <;> cases h

theorem firstRefused_cons {a : α} : FirstRefused f (a :: as) e ↔
    f a = .error e ∨ (∃ b, f a = .ok b) ∧ FirstRefused f as e := by
  constructor
  · rintro ⟨before, x, after, h, hbefore, hx⟩
    rcases List.cons_eq_append_iff.mp h with ⟨rfl, h⟩ | ⟨before', rfl, rfl⟩
    · obtain ⟨rfl, rfl⟩ := List.cons.inj h
      exact .inl hx
    · obtain ⟨ha, hbefore⟩ := List.forall_mem_cons.mp hbefore
      exact .inr ⟨ha, before', x, after, rfl, hbefore, hx⟩
  · rintro (ha | ⟨ha, before, x, after, rfl, hbefore, hx⟩)
    · exact ⟨[], a, as, rfl, nofun, ha⟩
    · exact ⟨a :: before, x, after, rfl, List.forall_mem_cons.mpr ⟨ha, hbefore⟩, hx⟩

theorem firstRefused_append {bs : List α} : FirstRefused f (as ++ bs) e ↔
    FirstRefused f as e ∨ (∀ a ∈ as, ∃ b, f a = .ok b) ∧ FirstRefused f bs e := by
  induction as with
  | nil => simp [not_firstRefused_nil]
  | cons a as ih =>
    rw [List.cons_append, firstRefused_cons, firstRefused_cons, ih, List.forall_mem_cons]
    tauto

theorem mapM_eq_error : as.mapM f = .error e ↔ FirstRefused f as e := by
  induction as with
  | nil => simp [pure, Except.pure, not_firstRefused_nil]
  | cons a as ih =>
    rw [List.mapM_cons, bind_eq_error, firstRefused_cons, ← ih]
    refine or_congr Iff.rfl ?_
    constructor
    · rintro ⟨b, hb, h⟩
      rcases bind_eq_error.mp h with h | ⟨bs, _, h⟩
      · exact ⟨⟨b, hb⟩, h⟩
      · cases h
    · rintro ⟨⟨b, hb⟩, h⟩
      exact ⟨b, hb, bind_eq_error.mpr (.inl h)⟩

theorem firstRefused_map {γ : Type} {g : γ → α} {cs : List γ} :
    FirstRefused f (cs.map g) e ↔ FirstRefused (fun c => f (g c)) cs e := by
  induction cs with
  | nil => simp [not_firstRefused_nil]
  | cons c cs ih => rw [List.map_cons, firstRefused_cons, firstRefused_cons, ih]

/-- Only what a step is refused for counts, not what it gives. -/
theorem firstRefused_congr {γ : Type} {g : α → Result γ}
    (h : ∀ a e, f a = .error e ↔ g a = .error e) : FirstRefused f as e ↔ FirstRefused g as e := by
  have hok : ∀ a, (∃ b, f a = .ok b) ↔ ∃ c, g a = .ok c := by
    intro a
    rw [exists_ok_iff_not_error, exists_ok_iff_not_error]
    simp only [ne_eq, h]
  unfold FirstRefused
  simp only [hok, h]

/-- The element of the list has the property, and none before it has. -/
def FirstOf (P : α → Prop) (as : List α) (a : α) : Prop :=
  ∃ before after, as = before ++ a :: after ∧ (∀ x ∈ before, ¬P x) ∧ P a

theorem isOk_iff_of_eq_error {P : α → Prop} {cause : α → Failure}
    (h : ∀ a e, f a = .error e ↔ P a ∧ e = cause a) (a : α) : (∃ b, f a = .ok b) ↔ ¬P a := by
  constructor
  · rintro ⟨b, hb⟩ hp
    rw [(h a _).mpr ⟨hp, rfl⟩] at hb
    cases hb
  · intro hp
    cases hr : f a with
    | ok b => exact ⟨b, rfl⟩
    | error e => exact absurd ((h a e).mp hr).1 hp

/-- Where what is refused is told by a property, and for what by the element. -/
theorem firstRefused_iff_firstOf {P : α → Prop} {cause : α → Failure}
    (h : ∀ a e, f a = .error e ↔ P a ∧ e = cause a) :
    FirstRefused f as e ↔ ∃ a, FirstOf P as a ∧ e = cause a := by
  unfold FirstRefused FirstOf
  simp only [isOk_iff_of_eq_error h, h]
  constructor
  · rintro ⟨before, a, after, hsplit, hbefore, ha, he⟩
    exact ⟨a, ⟨before, after, hsplit, hbefore, ha⟩, he⟩
  · rintro ⟨a, ⟨before, after, hsplit, hbefore, ha⟩, he⟩
    exact ⟨before, a, after, hsplit, hbefore, ha, he⟩

/-- Something is wrong with an element of the list, and nothing with any before it. -/
def FirstFault (Fault : α → Failure → Prop) (as : List α) (e : Failure) : Prop :=
  ∃ before a after, as = before ++ a :: after ∧ (∀ x ∈ before, ∀ e, ¬Fault x e) ∧ Fault a e

/-- Where what is refused, and for what, is told by the faults of the element. -/
theorem firstRefused_iff_firstFault {Fault : α → Failure → Prop}
    (h : ∀ a e, f a = .error e ↔ Fault a e) : FirstRefused f as e ↔ FirstFault Fault as e := by
  unfold FirstRefused FirstFault
  simp only [exists_ok_iff_not_error, ne_eq, h]

/-- A traversal is accepted if every element is. -/
theorem exists_mapM : (∃ bs, as.mapM f = .ok bs) ↔ ∀ a ∈ as, ∃ b, f a = .ok b := by
  constructor
  · rintro ⟨bs, h⟩ a ha
    obtain ⟨b, _, hb⟩ := exists_of_mem_left (mapM_eq_ok.mp h) ha
    exact ⟨b, hb⟩
  · intro h
    cases hr : as.mapM f with
    | ok bs => exact ⟨bs, rfl⟩
    | error e =>
      obtain ⟨before, a, after, rfl, _, ha⟩ := mapM_eq_error.mp hr
      obtain ⟨b, hb⟩ := h a (List.mem_append_right before List.mem_cons_self)
      rw [ha] at hb
      cases hb

/-- What is refused as a traversal is accepted as a traversal. -/
theorem exists_ok_of_firstRefused {γ : Type} {x : Result γ}
    (h : ∀ e, x = .error e ↔ FirstRefused f as e) :
    (∃ c, x = .ok c) ↔ ∀ a ∈ as, ∃ b, f a = .ok b := by
  rw [← exists_mapM, exists_ok_iff_not_error, exists_ok_iff_not_error]
  simp only [ne_eq, h, mapM_eq_error]

/-! ## Two operations side by side -/

/-- The operations are refused for the same cause, or give things that are related. -/
inductive Related (R : α → β → Prop) : Result α → Result β → Prop
  | refused (e : Failure) : Related R (.error e) (.error e)
  | given {a : α} {b : β} (h : R a b) : Related R (.ok a) (.ok b)

theorem related_of_eq {x y : Result α} (h : x = y) : Related Eq x y := by
  subst h
  cases x with
  | error e => exact .refused e
  | ok a => exact .given rfl

/-- What is the same once it is passed on to a function is related by what the function gives. -/
theorem related_of_map_eq {f : α → β} {x y : Result α} (h : x.map f = y.map f) :
    Related (fun a b => f a = f b) x y := by
  cases x with
  | error e =>
    cases y with
    | error e' =>
      cases h
      exact .refused e
    | ok b => cases h
  | ok a =>
    cases y with
    | error e => cases h
    | ok b => exact .given (Except.ok.inj h)

theorem Related.eq {x y : Result α} (h : Related Eq x y) : x = y := by
  cases h with
  | refused e => rfl
  | given h => rw [h]

theorem Related.bind {γ δ : Type} {R : α → β → Prop} {S : γ → δ → Prop} {x : Result α}
    {y : Result β} {f : α → Result γ} {g : β → Result δ} (h : Related R x y)
    (hf : ∀ a b, R a b → Related S (f a) (g b)) : Related S (x >>= f) (y >>= g) := by
  cases h with
  | refused e => exact .refused e
  | given h => exact hf _ _ h

/-- Traversals are related if their steps on related elements are. -/
theorem Related.mapM {γ δ : Type} {R : γ → δ → Prop} {P : α → β → Prop} {as : List α}
    {bs : List β} {f : α → Result γ} {g : β → Result δ} (h : List.Forall₂ P as bs)
    (hf : ∀ a b, P a b → Related R (f a) (g b)) :
    Related (List.Forall₂ R) (as.mapM f) (bs.mapM g) := by
  induction h with
  | nil => exact .given .nil
  | cons hab _ ih =>
    rw [List.mapM_cons, List.mapM_cons]
    exact (hf _ _ hab).bind fun _ _ hc => ih.bind fun _ _ hcs => .given (.cons hc hcs)

theorem Related.mapM_self {γ δ : Type} {R : γ → δ → Prop} {f : α → Result γ} {g : α → Result δ}
    (h : ∀ a, Related R (f a) (g a)) (as : List α) :
    Related (List.Forall₂ R) (as.mapM f) (as.mapM g) := by
  have hself : List.Forall₂ Eq as as := List.forall₂_same.mpr fun _ _ => rfl
  refine Related.mapM hself fun a b hab => ?_
  subst hab
  exact h a

/-- Lists that differ in one element are related where that and all others are. -/
theorem forall₂_replace {R : α → α → Prop} (hrefl : ∀ a, R a a) {a b : α} (h : R a b)
    (before after : List α) : List.Forall₂ R (before ++ a :: after) (before ++ b :: after) :=
  List.rel_append (List.forall₂_same.mpr fun a _ => hrefl a)
    (.cons h (List.forall₂_same.mpr fun a _ => hrefl a))

theorem mapM_congr {γ : Type} {as : List α} {bs : List β} {f : α → Result γ} {g : β → Result γ}
    (h : List.Forall₂ (fun a b => f a = g b) as bs) : as.mapM f = bs.mapM g := by
  have hsteps := Related.mapM h fun a b => related_of_eq
  rw [List.forall₂_eq_eq_eq] at hsteps
  exact hsteps.eq

end EntityApi.Result
