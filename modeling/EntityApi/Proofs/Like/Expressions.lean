import EntityApi.Proofs.Like

/-! # Patterns as regular expressions

A pattern is matched as a regular expression: its pieces between a mark for the
start of the text and one for its end (`anchored`). The expression is read from
left to right (`Reads`), and the end mark also stands before a line feed that ends
the text. So a pattern accepts the texts of its language, and those with a line
feed after them; where it ends in an open percent sign, these are in its language
anyway (`pattern_accepts_language`). -/
namespace EntityApi.Like

/-- What a piece may stand for. -/
inductive Takes : Piece → List Char → Prop
  | exactly (s : List Char) : Takes (.exactly s) s
  | oneChar (c : Char) : Takes .oneChar [c]
  | anyRun (s : List Char) : Takes .anyRun s

/-- A part of an expression: a mark for the start or the end of the text, or a piece. -/
inductive Part where
  | start
  | piece (q : Piece)
  | stop
  deriving Repr, DecidableEq

/-- The parts can be read in a text, one after the other, from a place that is given by what is
before it and after it. A piece moves the place over what it stands for, the marks leave it and ask
what is on one side of it. What comes after the last part is not looked at. -/
inductive Reads : List Part → List Char → List Char → Prop
  | nil {before after : List Char} : Reads [] before after
  | start {parts : List Part} {after : List Char} : Reads parts [] after →
    Reads (.start :: parts) [] after
  | piece {q : Piece} {parts : List Part} {before taken after : List Char} : Takes q taken →
    Reads parts (before ++ taken) after → Reads (.piece q :: parts) before (taken ++ after)
  | stop {parts : List Part} {before after : List Char} : after = [] ∨ after = ['\n'] →
    Reads parts before after → Reads (.stop :: parts) before after

/-- The expression of a whole text, with or without a line feed after it. -/
def anchored (ps : List Piece) : List Part := .start :: (ps.map .piece ++ [.stop])

/-- The pattern ends in a percent sign that is not escaped. Read from the left, an exclamation mark
escapes the character after it. -/
inductive OpenEnded : List Char → Prop
  | last : OpenEnded ['%']
  | escaped (c : Char) {p : List Char} : OpenEnded p → OpenEnded ('!' :: c :: p)
  | cons {c : Char} {p : List Char} : c ≠ '!' → OpenEnded p → OpenEnded (c :: p)

section

variable {q : Piece} {ps : List Piece} {parts : List Part} {before after s t : List Char}

/-- The first piece takes some of the text, and the others cover what it leaves. -/
theorem covers_cons : covers (q :: ps) s = true ↔
    ∃ taken rest, s = taken ++ rest ∧ Takes q taken ∧ covers ps rest = true := by
  cases q with
  | exactly t =>
    rw [covers_exactly]
    constructor
    · rintro ⟨rest, rfl, h⟩
      exact ⟨t, rest, rfl, .exactly t, h⟩
    · rintro ⟨_, rest, rfl, ⟨⟩, h⟩
      exact ⟨rest, rfl, h⟩
  | oneChar =>
    rw [covers_oneChar]
    constructor
    · rintro ⟨c, rest, rfl, h⟩
      exact ⟨[c], rest, rfl, .oneChar c, h⟩
    · rintro ⟨_, rest, rfl, ⟨⟩, h⟩
      exact ⟨_, rest, rfl, h⟩
  | anyRun =>
    rw [covers_anyRun]
    constructor
    · rintro ⟨skipped, rest, rfl, h⟩
      exact ⟨skipped, rest, rfl, .anyRun skipped, h⟩
    · rintro ⟨skipped, rest, rfl, _, h⟩
      exact ⟨skipped, rest, rfl, h⟩

theorem reads_piece : Reads (.piece q :: parts) before after ↔
    ∃ taken rest, after = taken ++ rest ∧ Takes q taken ∧ Reads parts (before ++ taken) rest := by
  constructor
  · intro h
    cases h with
    | piece htakes h => exact ⟨_, _, rfl, htakes, h⟩
  · rintro ⟨taken, rest, rfl, htakes, h⟩
    exact .piece htakes h

theorem reads_stop : Reads [.stop] before after ↔ after = [] ∨ after = ['\n'] := by
  constructor
  · intro h
    cases h with
    | stop hafter _ => exact hafter
  · exact fun hafter => .stop hafter .nil

/-- The second text is the first, or the first with a line feed after it. -/
def UpToLineFeed (s t : List Char) : Prop := t = s ∨ t = s ++ ['\n']

theorem upToLineFeed_append {u : List Char} :
    UpToLineFeed (u ++ s) (u ++ t) ↔ UpToLineFeed s t := by
  unfold UpToLineFeed
  rw [List.append_assoc, List.append_right_inj, List.append_right_inj]

/-- Pieces and the end mark read what the pieces cover, up to a line feed. -/
theorem reads_pieces_stop : Reads (ps.map .piece ++ [.stop]) before after ↔
    ∃ s, UpToLineFeed s after ∧ covers ps s = true := by
  induction ps generalizing before after with
  | nil =>
    rw [List.map_nil, List.nil_append, reads_stop]
    simp only [covers_nil, exists_eq_right, UpToLineFeed, List.nil_append]
  | cons q ps ih =>
    rw [List.map_cons, List.cons_append, reads_piece]
    simp only [ih, covers_cons]
    constructor
    · rintro ⟨taken, rest, rfl, htakes, s, hs, hcovers⟩
      exact ⟨taken ++ s, upToLineFeed_append.mpr hs, taken, s, rfl, htakes, hcovers⟩
    · rintro ⟨_, hs, taken, s, rfl, htakes, hcovers⟩
      rcases hs with rfl | rfl
      · exact ⟨taken, s, rfl, htakes, s, .inl rfl, hcovers⟩
      · exact ⟨taken, s ++ ['\n'], List.append_assoc _ _ _, htakes, s, .inr rfl, hcovers⟩

theorem accepts_iff : accepts ps t = true ↔ ∃ s, UpToLineFeed s t ∧ covers ps s = true := by
  unfold accepts
  rw [Bool.or_eq_true, Bool.and_eq_true, beq_iff_eq, List.getLast?_eq_some_iff]
  constructor
  · rintro (h | ⟨⟨s, rfl⟩, h⟩)
    · exact ⟨t, .inl rfl, h⟩
    · rw [List.dropLast_concat] at h
      exact ⟨s, .inr rfl, h⟩
  · rintro ⟨s, rfl | rfl, h⟩
    · exact .inl h
    · rw [List.dropLast_concat]
      exact .inr ⟨⟨s, rfl⟩, h⟩

/-- Accepted is what the anchored expression can be read in from the start. -/
theorem accepts_iff_reads : accepts ps t = true ↔ Reads (anchored ps) [] t := by
  rw [accepts_iff, ← @reads_pieces_stop ps [] t]
  constructor
  · exact .start
  · intro h
    cases h with
    | start h => exact h

/-- An open percent sign at the end takes all that follows. -/
theorem Matches.append_of_openEnded {p : List Char} (hopen : OpenEnded p) (h : Matches p s)
    (more : List Char) : Matches p (s ++ more) := by
  induction hopen generalizing s with
  | last => exact matches_run.mpr ⟨s ++ more, [], (List.append_nil _).symm, .nil⟩
  | escaped c _ ih =>
    obtain ⟨rest, rfl, hrest⟩ := matches_escaped.mp h
    exact .escaped c (ih hrest)
  | @cons c p hc _ ih =>
    cases hsign : isSign c with
    | false =>
      obtain ⟨rest, rfl, hrest⟩ := (matches_ordinary hsign).mp h
      exact .ordinary hsign (ih hrest)
    | true =>
      rcases isSign_eq_true.mp hsign with rfl | rfl | rfl
      · exact absurd rfl hc
      · obtain ⟨skipped, rest, rfl, hrest⟩ := matches_run.mp h
        exact matches_run.mpr ⟨skipped, rest ++ more, List.append_assoc _ _ _, ih hrest⟩
      · obtain ⟨d, rest, rfl, hrest⟩ := matches_one.mp h
        exact .one d (ih hrest)

end

/-- **A pattern accepts the texts of its language**, with or without a line feed after them. It is
read as an expression between a start and an end mark. Where the pattern ends in an open percent
sign, the texts with a line feed after them are in its language too. -/
theorem pattern_accepts_language (p t : List Char) :
    (accepts (parse p) t = true ↔ Reads (anchored (parse p)) [] t) ∧
    (accepts (parse p) t = true ↔ Matches p t ∨ ∃ s, t = s ++ ['\n'] ∧ Matches p s) ∧
    (OpenEnded p → (accepts (parse p) t = true ↔ Matches p t)) := by
  have hlanguage : accepts (parse p) t = true ↔
      Matches p t ∨ ∃ s, t = s ++ ['\n'] ∧ Matches p s := by
    rw [accepts_iff]
    simp only [covers_parse, UpToLineFeed, or_and_right, exists_or, exists_eq_left']
  refine ⟨accepts_iff_reads, hlanguage, fun hopen => ?_⟩
  rw [hlanguage]
  constructor
  · rintro (h | ⟨s, rfl, h⟩)
    · exact h
    · exact h.append_of_openEnded hopen ['\n']
  · exact .inl

/-- An escaped percent sign, one character and an open percent sign. -/
theorem pattern_accepts_language_of_percent :
    OpenEnded ['!', '%', '_', '%'] ∧ accepts (parse ['!', '%', '_', '%']) ['%', '!', '\n'] = true ∧
      accepts (parse ['!', '%', '_', '%']) ['a', '!', '\n'] = false := by
  have hopen : OpenEnded ['!', '%', '_', '%'] := .escaped '%' (.cons (by decide) .last)
  have hdecides := fun t => (pattern_accepts_language ['!', '%', '_', '%'] t).2.2 hopen
  refine ⟨hopen, (hdecides _).mpr ?_, ?_⟩
  · exact .escaped '%' (.one '!' (.run ['\n'] .nil))
  · rw [Bool.eq_false_iff, ne_eq, hdecides, matches_escaped]
    rintro ⟨_, ⟨⟩, _⟩

end EntityApi.Like
