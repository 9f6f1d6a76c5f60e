import EntityApi.Proofs.Number.PlainNumerals
import EntityApi.Proofs.Time.EpochMillis

/-! # Moments and days are read back from their text

The parts of a text have a fixed number of digits, so each is read off the front of what is
left (`takeDigits?_padded`): the date (`dayOf?_dateText`), the clock, with or without its
seconds (`clockOf?_clockText`, `clockOf?_shortText`), and the offset, which is a clock after
a sign (`offsetOf?_shortText`). A moment is read back from these (`momentOf?_momentText`).
As a value of the `Date` scalar the text may have blanks around it. It has a hyphen after
its first digits, so that it is never taken for a numeral (`parse_of_padded`). -/
namespace EntityApi

namespace Iso

open Text

/-! ## Digits of a fixed number -/

section

variable {width n : Nat}

theorem isDigit_of_mem_padded {c : Char} (h : c ∈ padded width n) : c.isDigit = true := by
  rcases List.mem_append.mp h with h | h
  · rw [(List.mem_replicate.mp h).2]
    rfl
  · exact Numeral.isDigit_of_mem_toDigits h

theorem length_padded (hw : 0 < width) (h : n < Nat.pow 10 width) :
    (padded width n).length = width := by
  have hlength := Numeral.length_toDigits_le hw h
  simp only [padded, List.length_append, List.length_replicate]
  omega

/-- As many digits as there are at the start are taken, for the number that they denote. -/
theorem takeDigits?_append {digits : List Char} (h : ∀ c ∈ digits, c.isDigit = true)
    (rest : List Char) : takeDigits? digits.length (digits ++ rest) =
      some (Nat.ofDigitChars 10 digits 0, rest) := by
  induction digits with
  | nil => rfl
  | cons c digits ih =>
    obtain ⟨hc, hdigits⟩ := List.forall_mem_cons.mp h
    have hshift : ∀ high, Nat.ofDigitChars 10 digits high =
        10 ^ digits.length * high + Nat.ofDigitChars 10 digits 0 :=
      fun _ => Nat.ofDigitChars_eq_ofDigitChars_zero
    have hvalue : (c.toNat - 48) * Nat.pow 10 digits.length + Nat.ofDigitChars 10 digits 0 =
        Nat.ofDigitChars 10 (c :: digits) 0 := by
      rw [Nat.ofDigitChars_cons, Nat.mul_zero, Nat.zero_add, hshift (c.toNat - '0'.toNat),
        Nat.mul_comm]
      rfl
    rw [List.length_cons, List.cons_append, takeDigits?, Numeral.asciiDigit?_of_isDigit hc,
      ih hdigits, ← hvalue]
    rfl

theorem takeDigits?_padded (hw : 0 < width) (h : n < Nat.pow 10 width) (rest : List Char) :
    takeDigits? width (padded width n ++ rest) = some (n, rest) := by
  have hvalue : Nat.ofDigitChars 10 (padded width n) 0 = n := by
    unfold padded
    dsimp only
    rw [Nat.ofDigitChars_append, Nat.ofDigitChars_replicate_zero, Nat.mul_zero,
      Nat.ofDigitChars_toDigits (by decide) (by decide)]
  have hdigits : ∀ c ∈ padded width n, c.isDigit = true := fun _ => isDigit_of_mem_padded
  have htaken := takeDigits?_append hdigits rest
  rwa [length_padded hw h, hvalue] at htaken

theorem takeDigits?_two (h : n < 100) (rest : List Char) :
    takeDigits? 2 (padded 2 n ++ rest) = some (n, rest) := takeDigits?_padded (by decide) h rest

theorem exists_padded_cons (hw : 0 < width) (h : n < Nat.pow 10 width) :
    ∃ c digits, padded width n = c :: digits ∧ c.isDigit = true := by
  cases hp : padded width n with
  | nil =>
    have hlength := length_padded hw h
    rw [hp] at hlength
    exact absurd hlength (Nat.ne_of_lt hw)
  | cons c digits => exact ⟨c, digits, rfl, isDigit_of_mem_padded (hp ▸ List.mem_cons_self)⟩

end

/-! ## Dates -/

section

variable {d : Calendar.Date}

theorem fits_of_valid (h : d.Valid) :
    d.year < Nat.pow 10 4 ∧ d.month < Nat.pow 10 2 ∧ d.day < Nat.pow 10 2 := by
  obtain ⟨_, hyear, _, hmonth, _, hday⟩ := h
  have hlongest : ∀ leap, ∀ k < 12, (Calendar.monthLengths leap).getD k 0 ≤ 31 := by decide
  have hmax := hlongest (Calendar.isLeap d.year) (d.month - 1) (by omega)
  have hfour : Nat.pow 10 4 = 10000 := rfl
  have htwo : Nat.pow 10 2 = 100 := rfl
  omega

theorem length_dateText (h : d.Valid) : (dateText d).length = 10 := by
  obtain ⟨hyear, hmonth, hday⟩ := fits_of_valid h
  have htwo : 0 < 2 := by decide
  simp only [dateText, List.length_append, List.length_cons, length_padded (by decide) hyear,
    length_padded htwo hmonth, length_padded htwo hday]

theorem dayOf?_dateText (h : d.Valid) : dayOf? (dateText d) = Day.ofDate? d := by
  obtain ⟨hyear, hmonth, hday⟩ := fits_of_valid h
  obtain ⟨c, digits, hc, hdigit⟩ := exists_padded_cons (by decide) hmonth
  have htakeYear := takeDigits?_padded (by decide) hyear
    ('-' :: (padded 2 d.month ++ '-' :: padded 2 d.day))
  have htakeMonth := takeDigits?_padded (by decide) hmonth ('-' :: padded 2 d.day)
  have htakeDay := takeDigits?_padded (by decide) hday []
  rw [List.append_nil] at htakeDay
  unfold dayOf? dateText
  rw [List.append_assoc, List.cons_append, htakeYear]
  dsimp only [Option.bind_eq_bind, Option.bind_some]
  split
  · -- a month begins with a digit, and a week does not
    rename_i heq
    rw [hc] at heq
    rw [(List.cons.inj heq).1] at hdigit
    cases hdigit
  · simp only [htakeMonth, htakeDay, Option.bind_some, ↓reduceIte, List.isEmpty_nil]

/-- The hyphen after the year and the digit after that tell how long the date is. -/
theorem dateLength_dateText (h : d.Valid) (tail : List Char) :
    dateLength (dateText d ++ tail) = 10 := by
  obtain ⟨hyear, hmonth, hday⟩ := fits_of_valid h
  obtain ⟨c, digits, hc, hdigit⟩ := exists_padded_cons (by decide) hmonth
  have hlong : ((dateText d ++ tail).length == 7) = false := by
    rw [List.length_append, length_dateText h, beq_eq_false_iff_ne]
    omega
  have hsplit : dateText d ++ tail =
      padded 4 d.year ++ '-' :: c :: (digits ++ '-' :: padded 2 d.day ++ tail) := by
    simp [dateText, hc]
  have hfour := length_padded (by decide) hyear
  have hhyphen : (dateText d ++ tail)[4]? = some '-' := by
    rw [hsplit, List.getElem?_append_right (Nat.le_of_eq hfour), hfour]
    rfl
  have hafter : (dateText d ++ tail)[5]? = some c := by
    rw [hsplit, List.getElem?_append_right (by omega), hfour]
    rfl
  have hweek : (some c == some 'W') = false := by
    rw [beq_eq_false_iff_ne]
    rintro heq
    cases heq
    cases hdigit
  unfold dateLength
  rw [hlong, hhyphen, hafter, hweek]
  rfl

/-- What follows a date and one more sign is read as a time, if there is anything. -/
theorem momentOf?_dateText_append (h : d.Valid) (tail : List Char) :
    momentOf? (dateText d ++ tail) = (Day.ofDate? d).bind fun day =>
      if (tail.drop 1).isEmpty then Moment.ofParts? day ⟨0, 0, 0, 0⟩ none
      else (timeOf? (tail.drop 1)).bind fun time => Moment.ofParts? day time.1 time.2 := by
  have hlength := length_dateText h
  have hshort : ¬(dateText d ++ tail).length < 7 := by
    rw [List.length_append]
    omega
  have hday : (dateText d ++ tail).take 10 = dateText d := by
    rw [← hlength, List.take_left']
    rfl
  have hrest : (dateText d ++ tail).drop 11 = tail.drop 1 := by
    rw [List.drop_append, hlength, List.drop_eq_nil_of_le (by omega)]
    rfl
  unfold momentOf?
  rw [if_neg hshort]
  dsimp only
  rw [dateLength_dateText h, hday, hrest, dayOf?_dateText h]
  rfl

/-- A date alone is read as the start of the day. -/
theorem momentOf?_dateText (h : d.Valid) :
    momentOf? (dateText d) = Moment.ofFields? d ⟨0, 0, 0, 0⟩ none := by
  have hread := momentOf?_dateText_append h []
  rwa [List.append_nil] at hread

end

/-! ## Clocks -/

/-- The fraction after the seconds, if there is any. -/
def fractionText (micro : Nat) : List Char := if micro == 0 then [] else '.' :: padded 6 micro

theorem fractionPart?_fractionText {micro : Nat} (h : micro < 1000000) :
    fractionPart? (fractionText micro) = some micro := by
  unfold fractionText
  split
  · rename_i hzero
    rw [eq_of_beq hzero]
    rfl
  · have hfits : micro < Nat.pow 10 6 := h
    have hlength := length_padded (by decide) hfits
    have htaken := takeDigits?_padded (by decide) hfits []
    have hempty : (padded 6 micro).isEmpty = false := by
      rw [List.isEmpty_eq_false_iff, ← List.length_pos_iff, hlength]
      decide
    have hdigits : (padded 6 micro).all isAsciiDigit = true :=
      List.all_eq_true.mpr fun _ hc => isDigit_of_mem_padded hc
    have hshown : (padded 6 micro).take 6 = padded 6 micro :=
      List.take_of_length_le (Nat.le_of_eq hlength)
    rw [List.append_nil] at htaken
    simp [fractionPart?, fraction?, hempty, hdigits, hshown, hlength, htaken]

section

variable {hour minute second : Nat}

theorem clockOf?_minutes (hh : hour < 100) (hm : minute < 100) :
    clockOf? (padded 2 hour ++ ':' :: padded 2 minute) = some ⟨hour, minute, 0, 0⟩ := by
  have htakeMinute := takeDigits?_two hm []
  rw [List.append_nil] at htakeMinute
  simp [clockOf?, takeDigits?_two hh, htakeMinute]

theorem clockOf?_seconds (hh : hour < 100) (hm : minute < 100) (hs : second < 100)
    (fraction : List Char) :
    clockOf? (padded 2 hour ++ ':' :: (padded 2 minute ++ ':' :: (padded 2 second ++ fraction))) =
      (fractionPart? fraction).map fun micro => ⟨hour, minute, second, micro⟩ := by
  simp only [clockOf?, takeDigits?_two hh, takeDigits?_two hm, takeDigits?_two hs,
    Option.bind_eq_bind, Option.bind_some, List.head?_cons, List.drop_succ_cons, List.drop_zero,
    List.isEmpty_cons, beq_self_eq_true, Bool.false_eq_true, ↓reduceIte, bne_self_eq_false,
    Bool.and_false, Option.pure_def]
  cases fractionPart? fraction <;> rfl

end

section

variable {c : Moment.Clock}

/-- The text of a clock, with its seconds. -/
def clockText (c : Moment.Clock) : List Char :=
  padded 2 c.hour ++ ':' :: (padded 2 c.minute ++ ':' :: (padded 2 c.second ++ fractionText c.micro))

/-- The text of a clock, without its seconds if there is nothing in them. -/
def shortText (c : Moment.Clock) : List Char :=
  if c.second = 0 ∧ c.micro = 0 then padded 2 c.hour ++ ':' :: padded 2 c.minute else clockText c

theorem clockOf?_clockText (h : c.Valid) : clockOf? (clockText c) = some c := by
  obtain ⟨hhour, hminute, hsecond, hmicro⟩ := h
  rw [clockText, clockOf?_seconds (by omega) (by omega) (by omega),
    fractionPart?_fractionText hmicro]
  rfl

theorem clockOf?_shortText (h : c.Valid) : clockOf? (shortText c) = some c := by
  unfold shortText
  split
  · rename_i hzero
    obtain ⟨hour, minute, second, micro⟩ := c
    obtain ⟨hhour, hminute, _, _⟩ := h
    obtain ⟨rfl, rfl⟩ := hzero
    exact clockOf?_minutes (Nat.lt_trans hhour (by decide)) (Nat.lt_trans hminute (by decide))
  · exact clockOf?_clockText h

theorem length_clockText_ge (h : c.Valid) : 8 ≤ (clockText c).length := by
  obtain ⟨hhour, hminute, hsecond, _⟩ := h
  have htwo : ∀ n, n < 100 → (padded 2 n).length = 2 := fun n hn => length_padded (by decide) hn
  simp only [clockText, List.length_append, List.length_cons, htwo c.hour (by omega),
    htwo c.minute (by omega), htwo c.second (by omega)]
  omega

theorem mem_clockText {x : Char} (h : x ∈ clockText c) : x.isDigit = true ∨ x = ':' ∨ x = '.' := by
  simp only [clockText, fractionText, List.mem_append, List.mem_cons] at h
  rcases h with h | h | h | h | h | h
  · exact .inl (isDigit_of_mem_padded h)
  · exact .inr (.inl h)
  · exact .inl (isDigit_of_mem_padded h)
  · exact .inr (.inl h)
  · exact .inl (isDigit_of_mem_padded h)
  · split at h
    · cases h
    · rcases List.mem_cons.mp h with h | h
      · exact .inr (.inr h)
      · exact .inl (isDigit_of_mem_padded h)

/-- The offset does not begin inside the clock. -/
theorem not_isZoneMark_of_mem_clockText {x : Char} (h : x ∈ clockText c) :
    isZoneMark x = false := by
  rcases mem_clockText h with hdigit | rfl | rfl
  · unfold isZoneMark
    simp only [Bool.or_eq_false_iff, beq_eq_false_iff_ne]
    refine ⟨⟨?_, ?_⟩, ?_⟩ <;> rintro rfl <;> cases hdigit
  · rfl
  · rfl

end

/-! ## Offsets -/

/-- An offset is written as the clock that it is ahead or behind by. -/
theorem offsetText_eq (o : Offset) : offsetText o =
    (if o.micros < 0 then '-' else '+') :: shortText (.ofMicros o.micros.natAbs) := by
  have hhour : o.micros.natAbs / 60000000 / 60 = o.micros.natAbs / 3600000000 := by omega
  unfold offsetText shortText clockText fractionText Moment.Clock.ofMicros
  dsimp only
  rw [hhour]
  by_cases hsecond : o.micros.natAbs / 1000000 % 60 = 0 <;>
    by_cases hmicro : o.micros.natAbs % 1000000 = 0 <;> simp [hsecond, hmicro]

theorem offsetOf?_shortText (o : Offset) :
    offsetOf? (decide (o.micros < 0)) (shortText (.ofMicros o.micros.natAbs)) = some o := by
  have hday := o.lessThanDay
  have hvalid : (Moment.Clock.ofMicros o.micros.natAbs).Valid :=
    Moment.Clock.valid_ofMicros (by omega)
  have hmicros : (if decide (o.micros < 0) = true then
      -((Moment.Clock.ofMicros o.micros.natAbs).toMicros : Int)
      else (Moment.Clock.ofMicros o.micros.natAbs).toMicros) = o.micros := by
    simp only [Moment.Clock.toMicros_ofMicros, decide_eq_true_eq]
    split <;> omega
  unfold offsetOf?
  rw [clockOf?_shortText hvalid, Option.bind_eq_bind, Option.bind_some, hmicros]
  exact dif_pos hday

/-- The offset of a moment in its text, if it has one. -/
def zoneText : Option Offset → List Char
  | none => []
  | some o => offsetText o

theorem timeOf?_clockText {c : Moment.Clock} (h : c.Valid) (o : Option Offset) :
    timeOf? (clockText c ++ zoneText o) = some (c, o) := by
  have hclock : ∀ x ∈ clockText c, (!isZoneMark x) = true := fun x hx => by
    rw [not_isZoneMark_of_mem_clockText hx]
    rfl
  unfold timeOf?
  rw [List.takeWhile_append_of_pos hclock, List.dropWhile_append_of_pos hclock]
  cases o with
  | none =>
    simp only [zoneText, List.takeWhile_nil, List.append_nil, List.dropWhile_nil,
      clockOf?_clockText h]
    rfl
  | some o =>
    have hoffset := offsetOf?_shortText o
    simp only [zoneText, offsetText_eq]
    by_cases hneg : o.micros < 0
    · have hmark : isZoneMark '-' = true := by decide
      simp only [hneg, ↓reduceIte, decide_true] at hoffset ⊢
      simp [hmark, clockOf?_clockText h, hoffset]
    · have hmark : isZoneMark '+' = true := by decide
      simp only [hneg, ↓reduceIte, decide_false] at hoffset ⊢
      simp [hmark, clockOf?_clockText h, hoffset]

/-! ## Moments -/

theorem momentText_eq (mark : Char) (m : Moment) : momentText mark m =
    dateText m.date ++ mark :: (clockText m.clock ++ zoneText m.offset) := by
  unfold momentText clockText fractionText
  cases m.offset <;> simp [zoneText]

/-- A moment is read back from its text, whatever stands between date and time. -/
theorem momentOf?_momentText (mark : Char) (m : Moment) :
    momentOf? (momentText mark m) = some m := by
  have hsome : (clockText m.clock ++ zoneText m.offset).isEmpty = false := by simp [clockText]
  rw [momentText_eq, momentOf?_dateText_append m.date_valid, List.drop_succ_cons, List.drop_zero,
    hsome, timeOf?_clockText m.clock_valid]
  exact m.ofFields?_date_clock

/-! ## The signs of a text -/

/-- The signs that the texts of days and moments are made of. -/
def IsMark (x : Char) : Prop := x.isDigit = true ∨ x ∈ ['-', 'T', ':', '.', '+']

theorem isMark_of_mem_dateText {d : Calendar.Date} {x : Char} (h : x ∈ dateText d) : IsMark x := by
  simp only [dateText, List.mem_append, List.mem_cons] at h
  rcases h with (h | rfl | h) | rfl | h
  · exact .inl (isDigit_of_mem_padded h)
  · exact .inr (by decide)
  · exact .inl (isDigit_of_mem_padded h)
  · exact .inr (by decide)
  · exact .inl (isDigit_of_mem_padded h)

theorem isMark_of_mem_clockText {c : Moment.Clock} {x : Char} (h : x ∈ clockText c) : IsMark x := by
  rcases mem_clockText h with hdigit | rfl | rfl
  · exact .inl hdigit
  · exact .inr (by decide)
  · exact .inr (by decide)

theorem isMark_of_mem_shortText {c : Moment.Clock} {x : Char} (h : x ∈ shortText c) : IsMark x := by
  unfold shortText at h
  split at h
  · rcases List.mem_append.mp h with h | h
    · exact .inl (isDigit_of_mem_padded h)
    · rcases List.mem_cons.mp h with rfl | h
      · exact .inr (by decide)
      · exact .inl (isDigit_of_mem_padded h)
  · exact isMark_of_mem_clockText h

theorem isMark_of_mem_momentText {m : Moment} {x : Char} (h : x ∈ momentText 'T' m) : IsMark x := by
  rw [momentText_eq] at h
  simp only [List.mem_append, List.mem_cons] at h
  rcases h with h | rfl | h | h
  · exact isMark_of_mem_dateText h
  · exact .inr (by decide)
  · exact isMark_of_mem_clockText h
  · cases ho : m.offset with
    | none =>
      rw [ho] at h
      cases h
    | some o =>
      rw [ho, zoneText, offsetText_eq] at h
      rcases List.mem_cons.mp h with rfl | h
      · split <;> exact .inr (by decide)
      · exact isMark_of_mem_shortText h

theorem IsMark.not_blank {x : Char} (h : IsMark x) : isBlank x = false := by
  rcases h with h | h
  · exact Numeral.isBlank_of_isDigit h
  · have hmarks : ['-', 'T', ':', '.', '+'].all (fun c => !isBlank c) = true := by decide
    simpa using List.all_eq_true.mp hmarks x h

theorem IsMark.ne_zulu {x : Char} (h : IsMark x) : x ≠ 'Z' := by
  rintro rfl
  revert h
  unfold IsMark
  decide

end Iso

namespace DateScalar

open Text (Padded)

/-! ## Texts as values of the scalar -/

/-- A text that begins with a date is no numeral, and is trimmed of the blanks around it. -/
theorem parse_of_padded {d : Calendar.Date} (hd : d.Valid) {tail : List Char}
    (hmarks : ∀ x ∈ Iso.dateText d ++ tail, Iso.IsMark x ∨ x = 'Z') {s : String}
    (h : Padded (Iso.dateText d ++ tail) s.toList) :
    parse (.text s) = ofIso (Iso.dateText d ++ tail) := by
  have hblank : ∀ x ∈ Iso.dateText d ++ tail, Text.isBlank x = false := by
    intro x hx
    rcases hmarks x hx with hmark | rfl
    · exact hmark.not_blank
    · rfl
  obtain ⟨hyear, _⟩ := Iso.fits_of_valid hd
  obtain ⟨c, digits, hc, hdigit⟩ := Iso.exists_padded_cons (by decide) hyear
  have hsplit : Iso.dateText d ++ tail =
      c :: (digits ++ '-' :: Iso.padded 2 d.month ++ '-' :: Iso.padded 2 d.day ++ tail) := by
    simp [Iso.dateText, hc]
  have hnumeral : Numeral.readInteger (Iso.dateText d ++ tail) = .error .malformed := by
    rw [hsplit] at hblank ⊢
    exact Numeral.readInteger_of_hyphen hdigit (by simp) hblank
  rw [parse, Text.trimChars_of_padded hblank h, hnumeral]

theorem expandZulu_of_not_mem {s : List Char} (h : 'Z' ∉ s) : expandZulu s = s := by
  induction s with
  | nil => rfl
  | cons c s ih =>
    obtain ⟨hc, hs⟩ := not_or.mp (List.mem_cons.not.mp h)
    have hother : (c == 'Z') = false := beq_eq_false_iff_ne.mpr (Ne.symm hc)
    rw [expandZulu, List.flatMap_cons, hother]
    exact congrArg (c :: ·) (ih hs)

theorem expandZulu_concat {s : List Char} (h : 'Z' ∉ s) :
    expandZulu (s ++ ['Z']) = s ++ "+00:00".toList := by
  have hs := expandZulu_of_not_mem h
  unfold expandZulu at hs ⊢
  rw [List.flatMap_append, hs]
  rfl

theorem serialize_text (s : String) :
    serialize (.text s) = (parse (.text s)).map Moment.toMillis := by
  show (parse (.text s) >>= fun m => pure m.toMillis) = _
  cases parse (.text s) <;> rfl

section

variable {m : Moment} {s : String}

/-- A moment is read from its text as what it shows, in universal time unless it has an offset. -/
theorem parse_momentText (h : Padded (Iso.momentText 'T' m) s.toList) :
    parse (.text s) = .ok m.orUtc := by
  have hzulu : 'Z' ∉ Iso.momentText 'T' m := fun hmem =>
    (Iso.isMark_of_mem_momentText hmem).ne_zulu rfl
  have hparse : parse (.text s) = ofIso (Iso.momentText 'T' m) := by
    have hmarks : ∀ x ∈ Iso.momentText 'T' m, Iso.IsMark x ∨ x = 'Z' := fun x hx =>
      .inl (Iso.isMark_of_mem_momentText hx)
    rw [Iso.momentText_eq] at h hmarks ⊢
    exact parse_of_padded m.date_valid hmarks h
  rw [hparse, ofIso, expandZulu_of_not_mem hzulu, Iso.momentOf?_momentText]

/-- A zero offset may be written in one letter. -/
theorem parse_zulu {core : List Char} (hcore : Iso.momentText 'T' m = core ++ "+00:00".toList)
    (h : Padded (core ++ ['Z']) s.toList) : parse (.text s) = .ok m.orUtc := by
  have hmark : ∀ x ∈ core, Iso.IsMark x := fun x hx =>
    Iso.isMark_of_mem_momentText (hcore ▸ List.mem_append_left _ hx)
  have hzulu : 'Z' ∉ core := fun hmem => (hmark 'Z' hmem).ne_zulu rfl
  have hstart : Iso.dateText m.date <+: core := by
    have hprefix : Iso.dateText m.date <+: Iso.momentText 'T' m := by
      rw [Iso.momentText_eq]
      exact List.prefix_append _ _
    have hlength := congrArg List.length hcore
    have hdate := Iso.length_dateText m.date_valid
    have hclock := Iso.length_clockText_ge m.clock_valid
    simp only [Iso.momentText_eq, List.length_append, List.length_cons, String.reduceToList,
      List.length_nil] at hlength
    exact List.prefix_of_prefix_length_le hprefix (hcore ▸ List.prefix_append _ _) (by omega)
  obtain ⟨tail, rfl⟩ := hstart
  have hparse : parse (.text s) = ofIso (Iso.dateText m.date ++ tail ++ ['Z']) := by
    rw [List.append_assoc] at h ⊢
    refine parse_of_padded m.date_valid (fun x hx => ?_) h
    rw [← List.append_assoc] at hx
    rcases List.mem_append.mp hx with hx | hx
    · exact .inl (hmark x hx)
    · exact .inr (List.mem_singleton.mp hx)
  rw [hparse, ofIso, expandZulu_concat hzulu, ← hcore, Iso.momentOf?_momentText]

/-- A day is read from its text as its start in universal time. -/
theorem parse_dateText {d : Day} (h : Padded (Iso.dateText d.date) s.toList) :
    ∃ m, parse (.text s) = .ok m ∧ m.toMillis = d.toMillis := by
  have hvalid : d.date.Valid := Calendar.valid_ofDay d.inCalendar.1 d.inCalendar.2
  have hnumber : d.date.toDay = d.number := Calendar.toDay_ofDay d.inCalendar.1 d.inCalendar.2
  have hmark : ∀ x ∈ Iso.dateText d.date, Iso.IsMark x := fun x => Iso.isMark_of_mem_dateText
  have hzulu : 'Z' ∉ Iso.dateText d.date := fun hmem => (hmark 'Z' hmem).ne_zulu rfl
  have hparse : parse (.text s) = ofIso (Iso.dateText d.date) := by
    rw [← List.append_nil (Iso.dateText d.date)] at h ⊢
    exact parse_of_padded hvalid (fun x hx => .inl (hmark x (by simpa using hx))) h
  have hmidnight : (⟨0, 0, 0, 0⟩ : Moment.Clock).Valid := by decide
  obtain ⟨m, hm, _, _, _, hinstant⟩ := Moment.exists_ofFields? hvalid hmidnight none
  refine ⟨m.orUtc, ?_, ?_⟩
  · rw [hparse, ofIso, expandZulu_of_not_mem hzulu, Iso.momentOf?_dateText hvalid, hm]
  · rw [Moment.toMillis, Moment.instant_orUtc, hinstant, Moment.instantOf, hnumber]
    simp only [Day.toMillis, Day.sinceEpoch, Moment.perDay, Moment.Clock.toMicros,
      Option.map_none, Option.getD_none]
    omega

end

/-- **Moments and days are read back from ISO 8601 text.** From the text that a moment is written
as, with any blanks around it, a moment of the same instant is read, with the same offset, or
universal time if there is none; so its milliseconds are those of the moment itself. Where the text
ends in a zero offset, `Z` may stand for that. From the text of a day its start in universal time is
read, so that in either form a day counts the milliseconds of the whole days from 1 January 1970. -/
theorem iso_text_read_back :
    (∀ (m : Moment) (s : String), Padded (Iso.momentText 'T' m) s.toList →
      ∃ n, parse (.text s) = .ok n ∧ n.instant = m.instant ∧
        n.offset = some (m.offset.getD Offset.utc) ∧
        serialize (.text s) = serialize (.moment m)) ∧
    (∀ (m : Moment) (core : List Char) (s : String),
      Iso.momentText 'T' m = core ++ "+00:00".toList → Padded (core ++ ['Z']) s.toList →
        parse (.text s) = parse (.text (String.ofList (Iso.momentText 'T' m)))) ∧
    (∀ (d : Day) (s : String), Padded (Iso.dateText d.date) s.toList →
      serialize (.text s) = serialize (.day d) ∧ serialize (.day d) =
        .ok (86400000 * ((d.date.toDay : Int) - Calendar.Date.toDay ⟨1970, 1, 1⟩))) := by
  refine ⟨?moment, ?zulu, ?day⟩
  case moment =>
    intro m s h
    have hparse := parse_momentText h
    refine ⟨m.orUtc, hparse, m.instant_orUtc, ?_, ?_⟩
    · obtain ⟨_, _ | _, _⟩ := m <;> rfl
    · rw [serialize_text, hparse]
      show Except.ok (m.orUtc.instant / 1000) = _
      rw [m.instant_orUtc]
      rfl
  case zulu =>
    intro m core s hcore h
    have hself : Padded (Iso.momentText 'T' m) (String.ofList (Iso.momentText 'T' m)).toList := by
      rw [String.toList_ofList]
      exact .refl _
    rw [parse_zulu hcore h, parse_momentText hself]
  case day =>
    intro d s h
    obtain ⟨m, hparse, hmillis⟩ := parse_dateText h
    constructor
    · rw [serialize_text, hparse]
      exact congrArg Except.ok hmillis
    · have hnumber : d.date.toDay = d.number := Calendar.toDay_ofDay d.inCalendar.1 d.inCalendar.2
      rw [hnumber, Int.mul_comm]
      rfl

/-- The last microseconds before the epoch on a clock that is some minutes and seconds behind, the
epoch itself, and the first day of the calendar. -/
theorem iso_text_read_back_of_ends :
    let m : Moment := ⟨-1, some ⟨-1521000000, by decide⟩, by decide⟩
    let epoch : Moment := ⟨0, some .utc, by decide⟩
    (∃ n, parse (.text " 1969-12-31T23:59:59.999999-00:25:21\n") = .ok n ∧
      n.instant = 1520999999 ∧ n.offset = m.offset) ∧
    parse (.text "1970-01-01T00:00:00Z") = parse (.text (String.ofList (Iso.momentText 'T' epoch))) ∧
    serialize (.text "0001-01-01") = .ok (-62135596800000) := by
  intro m epoch
  obtain ⟨moments, zulu, days⟩ := iso_text_read_back
  have htext : Iso.momentText 'T' m = "1969-12-31T23:59:59.999999-00:25:21".toList := by
    decide +kernel
  have hepoch : Iso.momentText 'T' epoch = "1970-01-01T00:00:00".toList ++ "+00:00".toList := by
    decide +kernel
  refine ⟨?_, ?_, ?_⟩
  · obtain ⟨n, hparse, hinstant, hoffset, _⟩ := moments m
      " 1969-12-31T23:59:59.999999-00:25:21\n" ⟨[' '], ['\n'], by rw [htext]; rfl,
        List.forall_mem_singleton.mpr rfl, List.forall_mem_singleton.mpr rfl⟩
    exact ⟨n, hparse, hinstant, hoffset⟩
  · exact zulu epoch _ _ hepoch (.refl _)
  · obtain ⟨hread, hmillis⟩ := days ⟨1, by decide⟩ "0001-01-01"
      ⟨[], [], by decide +kernel, nofun, nofun⟩
    rw [hread, hmillis]
    rfl

end DateScalar

end EntityApi
