import EntityApi.Text.Blank
import Mathlib.Data.List.TakeWhile

/-! # Trimmed texts and lines

What is left after trimming begins with no blank (`trimLeft_trimChars`): the end
is cut off last, and cutting there keeps the beginning. Only blanks are cut off
(`padded_trimChars`), and all of them (`trimChars_of_ends`), so nothing is left of
blanks alone (`trim_eq_empty_iff`). A text is cut into lines at no other places than
its line ends (`mem_splitOnP_of_mem_lineChars`). -/
namespace EntityApi.Text

/-! ## Trimming by any kind of characters -/

section

variable {p : Char → Bool} {core before after s : List Char}

/-- The text without the characters of a kind at both of its ends. -/
def trimBy (p : Char → Bool) (s : List Char) : List Char :=
  ((s.dropWhile p).reverse.dropWhile p).reverse

theorem dropWhile_eq_self (h : ∀ c, s.head? = some c → p c = false) : s.dropWhile p = s := by
  cases s with
  | nil => rfl
  | cons c s => exact List.dropWhile_cons_of_neg (by simp [h c rfl])

/-- What neither begins nor ends with such a character is left when those around it are trimmed. -/
theorem trimBy_of_ends (hfirst : ∀ c, core.head? = some c → p c = false)
    (hlast : ∀ c, core.getLast? = some c → p c = false) (hbefore : ∀ c ∈ before, p c = true)
    (hafter : ∀ c ∈ after, p c = true) : trimBy p (before ++ (core ++ after)) = core := by
  rw [trimBy, List.dropWhile_append_of_pos hbefore]
  cases core with
  | nil =>
    have hnil : after.dropWhile p = [] := List.dropWhile_eq_nil_iff.mpr hafter
    rw [List.nil_append, hnil]
    rfl
  | cons c rest =>
    have hstart : (c :: rest ++ after).dropWhile p = c :: rest ++ after := dropWhile_eq_self hfirst
    have hend : (c :: rest).reverse.dropWhile p = (c :: rest).reverse :=
      dropWhile_eq_self fun d hd => hlast d (List.head?_reverse ▸ hd)
    rw [hstart, List.reverse_append,
      List.dropWhile_append_of_pos fun d hd => hafter d (List.mem_reverse.mp hd), hend,
      List.reverse_reverse]

/-- Such characters are all that is trimmed. -/
theorem exists_trimBy (p : Char → Bool) (s : List Char) : ∃ before after,
    s = before ++ (trimBy p s ++ after) ∧ (∀ c ∈ before, p c = true) ∧ ∀ c ∈ after, p c = true := by
  let middle := (s.dropWhile p).reverse
  have hmiddle : trimBy p s ++ (middle.takeWhile p).reverse = s.dropWhile p := by
    rw [trimBy, ← List.reverse_append, List.takeWhile_append_dropWhile, List.reverse_reverse]
  refine ⟨s.takeWhile p, (middle.takeWhile p).reverse, ?_, fun _ => List.mem_takeWhile_imp,
    fun c hc => List.mem_takeWhile_imp (List.mem_reverse.mp hc)⟩
  rw [hmiddle, List.takeWhile_append_dropWhile]

end

/-! ## Blanks -/

theorem trimRight_prefix (s : List Char) : trimRight s <+: s := by
  have hsuffix : trimLeft s.reverse <:+ s.reverse := List.dropWhile_suffix isBlank
  rw [trimRight, ← List.reverse_suffix, List.reverse_reverse]
  exact hsuffix

theorem isBlank_of_trimLeft {c : Char} {s rest : List Char} (h : trimLeft s = c :: rest) :
    isBlank c = false := by
  have hne : trimLeft s ≠ [] := by
    rw [h]
    exact List.cons_ne_nil c rest
  have hhead := List.head_dropWhile_not isBlank hne
  have hc : (trimLeft s).head hne = c := by simp only [h, List.head_cons]
  rw [← hc]
  exact hhead

theorem trimLeft_trimChars (s : List Char) : trimLeft (trimChars s) = trimChars s := by
  obtain ⟨last, hlast⟩ := trimRight_prefix (trimLeft s)
  rw [trimChars]
  cases ht : trimRight (trimLeft s) with
  | nil => rfl
  | cons c rest =>
    have hc : isBlank c = false := by
      have hstart : trimLeft s = c :: (rest ++ last) := by
        rw [← hlast, ht, List.cons_append]
      exact isBlank_of_trimLeft hstart
    exact List.dropWhile_cons_of_neg (by simp [hc])

theorem trimLeft_eq_nil_iff {s : List Char} : trimLeft s = [] ↔ ∀ c ∈ s, isBlank c = true :=
  List.dropWhile_eq_nil_iff

theorem trimLeft_append {blanks : List Char} (h : ∀ c ∈ blanks, isBlank c = true) (s : List Char) :
    trimLeft (blanks ++ s) = trimLeft s := List.dropWhile_append_of_pos h

/-- The second text is the first with blanks before and after it. -/
def Padded (core s : List Char) : Prop :=
  ∃ before after, s = before ++ (core ++ after) ∧ (∀ c ∈ before, isBlank c = true) ∧
    ∀ c ∈ after, isBlank c = true

theorem Padded.refl (s : List Char) : Padded s s := ⟨[], [], (List.append_nil s).symm, nofun, nofun⟩

theorem Padded.trans {r s t : List Char} (h : Padded r s) (h' : Padded s t) : Padded r t := by
  obtain ⟨before, after, rfl, hbefore, hafter⟩ := h
  obtain ⟨before', after', rfl, hbefore', hafter'⟩ := h'
  refine ⟨before' ++ before, after ++ after', by simp only [List.append_assoc], ?_, ?_⟩
  · exact List.forall_mem_append.mpr ⟨hbefore', hbefore⟩
  · exact List.forall_mem_append.mpr ⟨hafter, hafter'⟩

theorem exists_trimLeft (s : List Char) :
    ∃ before, s = before ++ trimLeft s ∧ ∀ c ∈ before, isBlank c = true :=
  ⟨s.takeWhile isBlank, List.takeWhile_append_dropWhile.symm, fun _ => List.mem_takeWhile_imp⟩

/-- Blanks are all that is trimmed. -/
theorem padded_trimChars (s : List Char) : Padded (trimChars s) s := exists_trimBy isBlank s

/-- What begins and ends with no blank is left when blanks around it are trimmed. -/
theorem trimChars_of_ends {core s : List Char}
    (hfirst : ∀ c, core.head? = some c → isBlank c = false)
    (hlast : ∀ c, core.getLast? = some c → isBlank c = false)
    (h : Padded core s) : trimChars s = core := by
  obtain ⟨before, after, rfl, hbefore, hafter⟩ := h
  exact trimBy_of_ends hfirst hlast hbefore hafter

theorem trimChars_of_padded {core s : List Char} (hcore : ∀ c ∈ core, isBlank c = false)
    (h : Padded core s) : trimChars s = core :=
  trimChars_of_ends (fun c hc => hcore c (List.mem_of_head? hc))
    (fun c hc => hcore c (List.mem_of_getLast? hc)) h

theorem trimChars_eq_self {s : List Char} (h : ∀ c ∈ s, isBlank c = false) : trimChars s = s :=
  trimChars_of_padded h (.refl s)

/-- The text neither begins nor ends with a blank. -/
structure Trimmed (s : List Char) : Prop where
  first : ∀ c, s.head? = some c → isBlank c = false
  last : ∀ c, s.getLast? = some c → isBlank c = false

theorem trimmed_trimChars (s : List Char) : Trimmed (trimChars s) := by
  constructor
  · intro c hc
    obtain ⟨rest, hrest⟩ := List.head?_eq_some_iff.mp hc
    rw [← trimLeft_trimChars] at hrest
    exact isBlank_of_trimLeft hrest
  · intro c hc
    rw [trimChars, trimRight, List.getLast?_reverse] at hc
    obtain ⟨rest, hrest⟩ := List.head?_eq_some_iff.mp hc
    exact isBlank_of_trimLeft hrest

/-- Blanks around a text make no difference once it is trimmed. -/
theorem trimChars_congr {core s : List Char} (h : Padded core s) : trimChars s = trimChars core :=
  trimChars_of_ends (trimmed_trimChars core).first (trimmed_trimChars core).last
    ((padded_trimChars core).trans h)

theorem trimChars_trimChars (s : List Char) : trimChars (trimChars s) = trimChars s :=
  (trimChars_congr (padded_trimChars s)).symm

theorem trim_eq_empty_iff {s : String} : trim s = "" ↔ ∀ c ∈ s.toList, isBlank c = true := by
  have hright : trimChars s.toList = [] ↔ trimLeft s.toList = [] := by
    constructor
    · intro h
      -- what begins with no blank is not cut off from the other end either
      cases ht : trimLeft s.toList with
      | nil => rfl
      | cons c rest =>
        rw [trimChars, trimRight, List.reverse_eq_nil_iff, trimLeft_eq_nil_iff, ht] at h
        have hblank := h c (by simp)
        rw [isBlank_of_trimLeft ht] at hblank
        cases hblank
    · intro h
      rw [trimChars, h]
      rfl
  rw [← trimLeft_eq_nil_iff, ← hright, trim]
  exact String.ofList_eq_empty_iff

/-! ## Lines -/

theorem isBlank_of_isLineEnd {c : Char} (h : isLineEnd c = true) : isBlank c = true := by
  simp only [isLineEnd, isBlank, Bool.or_eq_true, decide_eq_true_eq, beq_iff_eq] at h ⊢
  omega

/-- The first line ends where the text is parted for the first time, and what follows it is parted
as it is by itself. -/
theorem splitOnP_takeLine (s : List Char) : ∃ others,
    s.splitOnP isLineEnd = (takeLine s).1 :: others ∧
      ((takeLine s).2 ≠ [] → (takeLine s).2.splitOnP isLineEnd ⊆ others) := by
  fun_induction takeLine s with
  | case1 => exact ⟨[], rfl, fun h => absurd rfl h⟩
  | case2 rest =>
    refine ⟨[] :: rest.splitOnP isLineEnd, ?_, fun _ => List.subset_cons_self _ _⟩
    rw [List.splitOnP_cons_eq_if_modifyHead, if_pos (by decide),
      List.splitOnP_cons_eq_if_modifyHead, if_pos (by decide)]
  | case3 c rest _ hc =>
    refine ⟨rest.splitOnP isLineEnd, ?_, fun _ => List.Subset.refl _⟩
    rw [List.splitOnP_cons_eq_if_modifyHead, if_pos hc]
  | case4 c rest _ hc l r hlr ih =>
    obtain ⟨others, hsplit, hrest⟩ := ih
    rw [hlr] at hsplit hrest
    refine ⟨others, ?_, hrest⟩
    rw [List.splitOnP_cons_eq_if_modifyHead, if_neg hc, hsplit]
    rfl

/-- Lines are parted by their ends; a text that is parted at every end has empty lines besides. -/
theorem mem_splitOnP_of_mem_lineChars {s row : List Char} (h : row ∈ lineChars s) :
    row ∈ s.splitOnP isLineEnd := by
  fun_induction lineChars s with
  | case1 => cases h
  | case2 c s parts ih =>
    obtain ⟨others, hsplit, hrest⟩ := splitOnP_takeLine (c :: s)
    rw [hsplit]
    rcases List.mem_cons.mp h with rfl | h
    · exact List.mem_cons_self
    · refine List.mem_cons_of_mem _ (hrest ?_ (ih h))
      intro hnil
      rw [hnil, lineChars] at h
      cases h

end EntityApi.Text
