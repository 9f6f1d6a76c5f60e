import Mathlib.Data.List.Basic

/-! # Texts that can be taken apart again

Items can be read back from their texts, written one after another, if the text of
an item tells where it ends, whatever comes after it (`Code.flatMap_inj`). It does so
if it ends with a mark that does not occur in it before (`Code.ended`). -/
namespace EntityApi.Text

variable {α β γ : Type} {P : β → Prop} {f : β → List α}

/-- The text of an item is not empty and tells where it ends. -/
structure Code (P : β → Prop) (f : β → List α) : Prop where
  nonempty : ∀ {b}, P b → f b ≠ []
  split : ∀ {b b' rest rest'}, P b → P b' → f b ++ rest = f b' ++ rest' → b = b' ∧ rest = rest'

namespace Code

/-- Texts one after another determine the items. -/
theorem flatMap_inj (h : Code P f) {bs bs' : List β} (hp : ∀ b ∈ bs, P b) (hp' : ∀ b ∈ bs', P b)
    (he : bs.flatMap f = bs'.flatMap f) : bs = bs' := by
  induction bs generalizing bs' with
  | nil =>
    cases bs' with
    | nil => rfl
    | cons b bs' =>
      have hempty := (List.append_eq_nil_iff.mp he.symm).1
      exact absurd hempty (h.nonempty (hp' b List.mem_cons_self))
  | cons b bs ih =>
    obtain ⟨hb, hbs⟩ := List.forall_mem_cons.mp hp
    cases bs' with
    | nil => exact absurd (List.append_eq_nil_iff.mp he).1 (h.nonempty hb)
    | cons b' bs' =>
      obtain ⟨hb', hbs'⟩ := List.forall_mem_cons.mp hp'
      obtain ⟨rfl, hrest⟩ := h.split hb hb' he
      rw [ih hbs hbs' hrest]

/-- The first mark is where the item before it ends. -/
theorem eq_of_append_cons {mark : α} {item item' rest rest' : List α} (h : mark ∉ item)
    (h' : mark ∉ item') (he : item ++ mark :: rest = item' ++ mark :: rest') :
    item = item' ∧ rest = rest' := by
  induction item generalizing item' with
  | nil =>
    cases item' with
    | nil => exact ⟨rfl, (List.cons.inj he).2⟩
    | cons a item' => exact absurd List.mem_cons_self ((List.cons.inj he).1 ▸ h')
  | cons a item ih =>
    cases item' with
    | nil => exact absurd List.mem_cons_self ((List.cons.inj he).1 ▸ h)
    | cons a' item' =>
      obtain ⟨rfl, htail⟩ := List.cons.inj he
      obtain ⟨rfl, hrest⟩ := ih (fun hm => h (List.mem_cons_of_mem _ hm))
        (fun hm => h' (List.mem_cons_of_mem _ hm)) htail
      exact ⟨rfl, hrest⟩

/-- An item that is marked at its end. -/
theorem ended (mark : α) (tail : List α) :
    Code (mark ∉ ·) fun item : List α => item ++ mark :: tail where
  nonempty _ := by simp
  split := by
    intro item item' rest rest' h h' he
    simp only [List.append_assoc, List.cons_append] at he
    obtain ⟨rfl, htail⟩ := eq_of_append_cons h h' he
    exact ⟨rfl, List.append_cancel_left htail⟩

/-- Items that are first written in another form. -/
theorem comp (h : Code P f) {Q : γ → Prop} {g : γ → β} (hq : ∀ c, Q c → P (g c))
    (hinj : ∀ c c', Q c → Q c' → g c = g c' → c = c') : Code Q fun c => f (g c) where
  nonempty hc := h.nonempty (hq _ hc)
  split hc hc' he := by
    obtain ⟨hg, hrest⟩ := h.split (hq _ hc) (hq _ hc') he
    exact ⟨hinj _ _ hc hc' hg, hrest⟩

/-- Two things that tell the item, in a row. -/
theorem two {f g : β → α} (h : ∀ b b', f b = f b' → g b = g b' → b = b') :
    Code (fun _ => True) fun b => [f b, g b] where
  nonempty _ := by simp
  split := by
    intro b b' rest rest' _ _ he
    simp only [List.cons_append, List.nil_append, List.cons.injEq] at he
    exact ⟨h b b' he.1 he.2.1, he.2.2⟩

end Code

/-- Items of which two things tell them are told by the lists of both. -/
theorem eq_of_maps {f : α → β} {g : α → γ} {as as' : List α}
    (h : ∀ a ∈ as, ∀ a' ∈ as', f a = f a' → g a = g a' → a = a')
    (hf : as.map f = as'.map f) (hg : as.map g = as'.map g) : as = as' := by
  induction as generalizing as' with
  | nil => exact (List.map_eq_nil_iff.mp hf.symm).symm
  | cons a as ih =>
    cases as' with
    | nil => cases hf
    | cons a' as' =>
      obtain ⟨hfa, hfas⟩ := List.cons.inj hf
      obtain ⟨hga, hgas⟩ := List.cons.inj hg
      rw [h a List.mem_cons_self a' List.mem_cons_self hfa hga,
        ih (fun b hb b' hb' => h b (List.mem_cons_of_mem _ hb) b' (List.mem_cons_of_mem _ hb'))
          hfas hgas]

/-- What is put between texts, put after the last one too. -/
theorem intercalate_append {sep : String} {texts : List String} (h : texts ≠ []) :
    (sep.intercalate texts ++ sep).toList = texts.flatMap fun t => t.toList ++ sep.toList := by
  induction texts with
  | nil => exact absurd rfl h
  | cons t texts ih =>
    by_cases hnil : texts = []
    · subst hnil
      simp
    · rw [String.intercalate_cons_of_ne_nil hnil, List.flatMap_cons, ← ih hnil]
      simp [List.append_assoc]

end EntityApi.Text
