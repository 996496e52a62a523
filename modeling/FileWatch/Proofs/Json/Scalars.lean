import FileWatch.Proofs.Json.Readings
import Mathlib.Tactic.ByContra
/-!
Numbers and words. A number is read as far as it goes: in front of a text that could not belong to
it, the reader takes exactly what the grammar calls a number.
-/

namespace FileWatch.Json

/-- No number goes on into this text. -/
def NumberStops (rest : Text) : Prop :=
  ∀ c more, rest = c :: more →
    c.isAsciiDigit = false ∧ c ≠ '.' ∧ Binary64.isExponentMark c = false

theorem numberStops_cons {c : CodePoint} (hc : c.isAsciiDigit = false ∧ c ≠ '.' ∧
    Binary64.isExponentMark c = false) (more : Text) : NumberStops (c :: more) := by
  intro d rest h
  cases h
  exact hc

def DigitsStop (rest : Text) : Prop := ∀ c more, rest = c :: more → c.isAsciiDigit = false

theorem NumberStops.digits {rest : Text} (h : NumberStops rest) : DigitsStop rest :=
  fun c more hrest => (h c more hrest).1

theorem spanDigits_digits (t : Text) : ∀ c ∈ (spanDigits t).1, c.isAsciiDigit = true :=
  fun _ hc => List.mem_takeWhile_imp hc

theorem spanDigits_split (t : Text) : t = (spanDigits t).1 ++ (spanDigits t).2 :=
  (List.takeWhile_append_dropWhile (p := CodePoint.isAsciiDigit) (l := t)).symm

theorem spanDigits_complete {ds rest : Text} (hd : ∀ c ∈ ds, c.isAsciiDigit = true)
    (hrest : DigitsStop rest) : spanDigits (ds ++ rest) = (ds, rest) := by
  have stop : rest.takeWhile CodePoint.isAsciiDigit = [] ∧
      rest.dropWhile CodePoint.isAsciiDigit = rest := by
    cases rest with
    | nil => exact ⟨rfl, rfl⟩
    | cons c more => simp [hrest c more rfl]
  unfold spanDigits
  rw [List.takeWhile_append_of_pos hd, List.dropWhile_append_of_pos hd, stop.1, stop.2,
    List.append_nil]

theorem spanDigits_append {t : Text} (h : Ended t) (more : Text) :
    spanDigits (t ++ more) = ((spanDigits t).1, (spanDigits t).2 ++ more) := by
  unfold spanDigits
  rw [takeWhile_append_ended h (by decide), dropWhile_append_ended h (by decide)]

/-! The three parts of a number. -/

theorem wholePart_sound {t whole rest : Text} (h : wholePart? t = some (whole, rest)) :
    t = whole ++ rest ∧ Whole whole := by
  unfold wholePart? at h
  cases t with
  | nil => cases h
  | cons c t =>
    by_cases hz : c = '0'
    · simp only [hz, if_true, Option.some.injEq, Prod.mk.injEq] at h
      obtain ⟨rfl, rfl⟩ := h
      exact ⟨by rw [hz]; rfl, Or.inl rfl⟩
    · by_cases hd : c.isAsciiDigit = true
      · simp only [if_neg hz, hd, if_true, Option.some.injEq] at h
        have hsplit := spanDigits_split (c :: t)
        have hdigits := spanDigits_digits (c :: t)
        rw [h] at hsplit hdigits
        have hfirst : whole = c :: t.takeWhile CodePoint.isAsciiDigit := by
          have hspan := congrArg Prod.fst h
          simpa [spanDigits, hd] using hspan.symm
        refine ⟨hsplit, Or.inr ⟨⟨by simp [hfirst], hdigits⟩, ?_⟩⟩
        simpa [hfirst] using hz
      · simp [hz, hd] at h

theorem wholePart_complete {whole rest : Text} (h : Whole whole) (hrest : DigitsStop rest) :
    wholePart? (whole ++ rest) = some (whole, rest) := by
  rcases h with rfl | ⟨⟨hne, hd⟩, hz⟩
  · rfl
  · obtain ⟨c, ds, rfl⟩ := List.exists_cons_of_ne_nil hne
    have hc : c ≠ '0' := by simpa using hz
    have hspan := spanDigits_complete hd hrest
    rw [List.cons_append] at hspan ⊢
    simp only [wholePart?, if_neg hc, hd c (by simp), if_true, hspan]

theorem wholePart_append {t : Text} (h : Ended t) (more : Text) :
    wholePart? (t ++ more) = (wholePart? t).map fun p => (p.1, p.2 ++ more) := by
  obtain ⟨c, t, rfl⟩ := List.exists_cons_of_ne_nil (ended_ne_nil h)
  have hspan := spanDigits_append h more
  rw [List.cons_append] at hspan ⊢
  simp only [wholePart?, hspan]
  by_cases hz : c = '0'
  · simp [hz]
  · by_cases hd : c.isAsciiDigit = true <;> simp [hz, hd]

theorem wholePart_ended {t whole rest : Text} (h : Ended t)
    (hw : wholePart? t = some (whole, rest)) : Ended rest := by
  obtain ⟨rfl, hwhole⟩ := wholePart_sound hw
  exact ended_after_token (digits_ends (whole_digits hwhole)) h

theorem fractionPart_sound (t : Text) :
    ∃ s, t = s ++ (fractionPart t).2 ∧ Fraction s (fractionPart t).1 := by
  unfold fractionPart
  cases t with
  | nil => exact ⟨[], rfl, .absent⟩
  | cons c t =>
    by_cases hf : (c = '.' && !(spanDigits t).1.isEmpty) = true
    · simp only [hf, if_true]
      simp only [Bool.and_eq_true, decide_eq_true_eq, Bool.not_eq_true', List.isEmpty_eq_false_iff]
        at hf
      obtain ⟨rfl, hne⟩ := hf
      refine ⟨'.' :: (spanDigits t).1, ?_, .present ⟨hne, spanDigits_digits t⟩⟩
      rw [List.cons_append, ← spanDigits_split]
    · simp only [if_neg hf]
      exact ⟨[], rfl, .absent⟩

theorem fractionPart_complete {s places rest : Text} (h : Fraction s places)
    (hrest : DigitsStop rest) (hpoint : s = [] → rest.head? ≠ some ('.' : CodePoint)) :
    fractionPart (s ++ rest) = (places, rest) := by
  cases h with
  | absent =>
    cases rest with
    | nil => rfl
    | cons c more =>
      have hc : c ≠ '.' := by simpa using hpoint rfl
      simp [fractionPart, hc]
  | present hd =>
    have hspan := spanDigits_complete hd.2 hrest
    have hne := hd.1
    simp [fractionPart, hspan, hne]

theorem fractionPart_append {t : Text} (h : Ended t) (more : Text) :
    fractionPart (t ++ more) = ((fractionPart t).1, (fractionPart t).2 ++ more) := by
  obtain ⟨c, t, rfl⟩ := List.exists_cons_of_ne_nil (ended_ne_nil h)
  by_cases hc : c = '.'
  · have hspan := spanDigits_append (ended_tail h (by rw [hc]; decide)) more
    simp only [List.cons_append, fractionPart, hspan]
    split <;> rfl
  · simp [fractionPart, hc]

theorem takeSign_sound (t : Text) :
    ∃ s, t = s ++ (Numeral.takeSign t).2 ∧ Sign s (Numeral.takeSign t).1 := by
  unfold Numeral.takeSign
  cases t with
  | nil => exact ⟨[], rfl, .absent⟩
  | cons c t =>
    by_cases hm : c = '-'
    · simp only [if_pos hm]
      exact ⟨['-'], by rw [hm]; rfl, .minus⟩
    · by_cases hp : c = '+'
      · simp only [if_neg hm, if_pos hp]
        exact ⟨['+'], by rw [hp]; rfl, .plus⟩
      · simp only [if_neg hm, if_neg hp]
        exact ⟨[], rfl, .absent⟩

theorem takeSign_ended {t : Text} (h : Ended t) : Ended (Numeral.takeSign t).2 := by
  obtain ⟨s, hs, hsign⟩ := takeSign_sound t
  rw [hs] at h
  generalize Numeral.takeSign t = parts at h hsign
  obtain ⟨negative, body⟩ := parts
  cases hsign with
  | absent => exact h
  | plus => exact ended_tail h (by decide)
  | minus => exact ended_tail h (by decide)

theorem takeSign_complete {s ds : Text} {negative : Bool} (h : Sign s negative) (hd : Digits ds)
    (rest : Text) : Numeral.takeSign (s ++ (ds ++ rest)) = (negative, ds ++ rest) := by
  cases h with
  | absent =>
    obtain ⟨c, ds, rfl⟩ := List.exists_cons_of_ne_nil hd.1
    have hc := hd.2 c (by simp)
    have hm : c ≠ '-' := by rintro rfl; exact absurd hc (by decide)
    have hp : c ≠ '+' := by rintro rfl; exact absurd hc (by decide)
    simp [Numeral.takeSign, hm, hp]
  | plus => rfl
  | minus => rfl

theorem takeSign_append {t : Text} (h : t ≠ []) (more : Text) :
    Numeral.takeSign (t ++ more) = ((Numeral.takeSign t).1, (Numeral.takeSign t).2 ++ more) := by
  obtain ⟨c, t, rfl⟩ := List.exists_cons_of_ne_nil h
  simp only [List.cons_append, Numeral.takeSign]
  split
  · rfl
  · split <;> rfl

/-- The exponent behind its mark; without digits the mark belongs to the rest. -/
theorem exponentPart_mark {c : CodePoint} (hm : Binary64.isExponentMark c = true) (t : Text) :
    exponentPart (c :: t) =
      if (spanDigits (Numeral.takeSign t).2).1.isEmpty then (none, c :: t)
      else (some (signed (Numeral.takeSign t).1 (spanDigits (Numeral.takeSign t).2).1),
        (spanDigits (Numeral.takeSign t).2).2) := by
  simp only [exponentPart, hm, if_true, signed]

theorem exponentPart_sound (t : Text) :
    ∃ s, t = s ++ (exponentPart t).2 ∧ Exponent s (exponentPart t).1 := by
  cases t with
  | nil => exact ⟨[], rfl, .absent⟩
  | cons c t =>
    by_cases hm : Binary64.isExponentMark c = true
    · rw [exponentPart_mark hm]
      obtain ⟨s, hs, hsign⟩ := takeSign_sound t
      split
      · exact ⟨[], rfl, .absent⟩
      · rename_i hne
        refine ⟨c :: (s ++ (spanDigits (Numeral.takeSign t).2).1), ?_,
          .present hm hsign ⟨by simpa using hne, spanDigits_digits _⟩⟩
        rw [List.cons_append, List.append_assoc, ← spanDigits_split, ← hs]
    · simp only [exponentPart, if_neg hm]
      exact ⟨[], rfl, .absent⟩

theorem exponentPart_complete {s rest : Text} {power? : Option Int} (h : Exponent s power?)
    (hrest : NumberStops rest) : exponentPart (s ++ rest) = (power?, rest) := by
  cases h with
  | absent =>
    cases rest with
    | nil => rfl
    | cons c more => simp [exponentPart, (hrest c more rfl).2.2]
  | present hm hs hd =>
    have hspan := spanDigits_complete hd.2 hrest.digits
    rw [List.cons_append, List.append_assoc, exponentPart_mark hm, takeSign_complete hs hd, hspan]
    simp [hd.1]

theorem exponentPart_append {t : Text} (h : Ended t) (more : Text) :
    exponentPart (t ++ more) = ((exponentPart t).1, (exponentPart t).2 ++ more) := by
  obtain ⟨c, t, rfl⟩ := List.exists_cons_of_ne_nil (ended_ne_nil h)
  rw [List.cons_append]
  by_cases hm : Binary64.isExponentMark c = true
  · have ht : Ended t := ended_tail h (by rintro rfl; exact absurd hm (by decide))
    rw [exponentPart_mark hm, exponentPart_mark hm, takeSign_append (ended_ne_nil ht),
      spanDigits_append (takeSign_ended ht)]
    split <;> rfl
  · simp only [exponentPart, if_neg hm, List.cons_append]

/-! Whole numbers and words. -/

def numberOf (negative : Bool) (whole places : Text) (exponent : Option Int × Text) :
    Reading Value :=
  if places.isEmpty && exponent.1.isNone then
    if Numeral.digitLimit < whole.length then .error (.longInteger whole.length)
    else .ok (.int (signed negative whole), exponent.2)
  else
    .ok (.float (Binary64.ofDecimal negative (Numeral.digitsValue (whole ++ places))
      (exponent.1.getD 0 - places.length)), exponent.2)

theorem unsignedNumber_parts (negative : Bool) (t : Text) :
    unsignedNumber negative t = (wholePart? t).map fun p =>
      numberOf negative p.1 (fractionPart p.2).1 (exponentPart (fractionPart p.2).2) := by
  unfold unsignedNumber numberOf signed
  cases wholePart? t with
  | none => rfl
  | some p =>
    simp only [Option.bind_eq_bind, Option.bind_some, Option.map_some]
    split
    · split <;> rfl
    · rfl

theorem numberOf_sound {negative : Bool} {whole fraction places exponent rest : Text}
    {power : Option Int × Text} {v : Value} (hw : Whole whole) (hf : Fraction fraction places)
    (he : Exponent exponent power.1)
    (h : numberOf negative whole places power = .ok (v, rest)) :
    rest = power.2 ∧ Unsigned negative (whole ++ (fraction ++ exponent)) v := by
  obtain ⟨power?, behind⟩ := power
  unfold numberOf at h
  by_cases hint : (places.isEmpty && power?.isNone) = true
  · rw [if_pos hint] at h
    by_cases hl : Numeral.digitLimit < whole.length
    · rw [if_pos hl] at h
      cases h
    · rw [if_neg hl] at h
      cases h
      cases hf with
      | present hd => simp [hd.1] at hint
      | absent =>
        cases he with
        | present _ _ _ => simp at hint
        | absent => exact ⟨rfl, by simpa using Unsigned.integer hw (by omega)⟩
  · rw [if_neg hint] at h
    cases h
    refine ⟨rfl, .real hw hf he ?_⟩
    by_contra hnone
    simp only [not_or, ne_eq, not_not, Option.not_isSome_iff_eq_none] at hnone
    exact hint (by simp [hnone.1, hnone.2])

theorem unsignedNumber_sound {negative : Bool} {t rest : Text} {v : Value}
    (h : unsignedNumber negative t = some (.ok (v, rest))) :
    ∃ s, t = s ++ rest ∧ Unsigned negative s v := by
  rw [unsignedNumber_parts] at h
  obtain ⟨⟨whole, t'⟩, hwhole, hnumber⟩ := Option.map_eq_some_iff.mp h
  obtain ⟨rfl, hw⟩ := wholePart_sound hwhole
  obtain ⟨fraction, hft, hf⟩ := fractionPart_sound t'
  obtain ⟨exponent, het, he⟩ := exponentPart_sound (fractionPart t').2
  obtain ⟨hrest, hs⟩ := numberOf_sound hw hf he hnumber
  refine ⟨_, ?_, hs⟩
  rw [hrest, List.append_assoc, List.append_assoc, ← het, ← hft]

/-- Behind the whole part of a number comes its fraction, its exponent or what is no number. -/
theorem digits_stop_behind_whole {fraction places exponent rest : Text} {power? : Option Int}
    (hf : Fraction fraction places) (he : Exponent exponent power?) (hrest : NumberStops rest) :
    DigitsStop (exponent ++ rest) ∧ DigitsStop (fraction ++ (exponent ++ rest)) := by
  have hexp : DigitsStop (exponent ++ rest) := by
    cases he with
    | absent => exact hrest.digits
    | present hm _ _ =>
      intro c more h
      cases h
      simp only [Binary64.isExponentMark, Bool.or_eq_true, decide_eq_true_eq] at hm
      rcases hm with rfl | rfl <;> decide
  refine ⟨hexp, ?_⟩
  cases hf with
  | absent => exact hexp
  | present _ =>
    intro c more h
    cases h
    decide

theorem no_point_behind_whole {exponent rest : Text} {power? : Option Int}
    (he : Exponent exponent power?) (hrest : NumberStops rest) :
    (exponent ++ rest).head? ≠ some ('.' : CodePoint) := by
  cases he with
  | absent =>
    intro h
    obtain ⟨more, rfl⟩ := List.head?_eq_some_iff.mp h
    exact (hrest _ more rfl).2.1 rfl
  | present hm _ _ =>
    intro h
    obtain rfl := Option.some.inj h
    exact absurd hm (by decide)

theorem unsignedNumber_complete {negative : Bool} {s rest : Text} {v : Value}
    (h : Unsigned negative s v) (hrest : NumberStops rest) :
    unsignedNumber negative (s ++ rest) = some (.ok (v, rest)) := by
  rw [unsignedNumber_parts]
  cases h with
  | integer hw hl =>
    have hf := fractionPart_complete .absent hrest.digits
      fun _ => no_point_behind_whole .absent hrest
    have he := exponentPart_complete .absent hrest
    rw [List.nil_append] at hf he
    have hl' : ¬ Numeral.digitLimit < s.length := by omega
    simp [wholePart_complete hw hrest.digits, hf, he, numberOf, hl']
  | @real whole fraction places exponent power? hw hf he hreal =>
    obtain ⟨hexp, hfrac⟩ := digits_stop_behind_whole hf he hrest
    have hint : (places.isEmpty && power?.isNone) = false := by
      rcases hreal with hp | hp
      · simp [hp]
      · simp [hp]
    simp only [List.append_assoc]
    rw [wholePart_complete hw hfrac]
    simp only [Option.map_some]
    rw [fractionPart_complete hf hexp fun _ => no_point_behind_whole he hrest,
      exponentPart_complete he hrest, numberOf, hint]
    rfl

theorem fractionPart_ended {t : Text} (h : Ended t) : Ended (fractionPart t).2 := by
  obtain ⟨s, hs, hf⟩ := fractionPart_sound t
  rw [hs] at h
  rcases fraction_ends hf with rfl | he
  · exact h
  · exact ended_after_token he h

theorem unsignedNumber_append {negative : Bool} {t : Text} (h : Ended t) (more : Text) :
    unsignedNumber negative (t ++ more) = (unsignedNumber negative t).map (extend more) := by
  rw [unsignedNumber_parts, unsignedNumber_parts, wholePart_append h]
  cases hw : wholePart? t with
  | none => rfl
  | some p =>
    have hp : Ended p.2 := wholePart_ended h hw
    simp only [Option.map_some, fractionPart_append hp, exponentPart_append (fractionPart_ended hp)]
    unfold numberOf
    split
    · split <;> rfl
    · rfl

theorem afterWord_sound {w : String} {t rest : Text} (h : afterWord? w t = some rest) :
    t = Text.ofString w ++ rest := by
  unfold afterWord? at h
  split at h
  · rename_i hprefix
    obtain ⟨tail, rfl⟩ := List.isPrefixOf_iff_prefix.mp hprefix
    simpa using h
  · cases h

theorem afterWord_append {w : String} {t : Text} (h : Ended t)
    (hw : ('\n' : CodePoint) ∉ Text.ofString w) (more : Text) :
    afterWord? w (t ++ more) = (afterWord? w t).map (· ++ more) := by
  unfold afterWord?
  by_cases hp : Text.ofString w <+: t
  · obtain ⟨tail, rfl⟩ := hp
    simp [List.isPrefixOf_iff_prefix, List.append_assoc]
  · have hp' : ¬ Text.ofString w <+: t ++ more := by
      intro hlong
      rcases List.prefix_or_prefix_of_prefix hlong (List.prefix_append t more) with hshort | hshort
      · exact hp hshort
      · exact hw (hshort.subset (ended_mem h))
    rw [if_neg (by simpa using hp'), if_neg (by simpa using hp)]
    rfl

def wordAhead (t : Text) : Option (Value × Text) :=
  words.findSome? fun p => (afterWord? p.1 t).map fun rest => (p.2, rest)

def minusAhead (t : Text) : Bool × Text :=
  match t with
  | c :: rest => if c = '-' then (true, rest) else (false, t)
  | [] => (false, [])

theorem scalar_eq (t : Text) :
    scalar t = match wordAhead t with
      | some reading => .ok reading
      | none => (unsignedNumber (minusAhead t).1 (minusAhead t).2).getD
          (.error (.malformed .value t)) := by
  rfl

theorem wordAhead_sound {t rest : Text} {v : Value} (h : wordAhead t = some (v, rest)) :
    ∃ w, (w, v) ∈ words ∧ t = Text.ofString w ++ rest := by
  obtain ⟨⟨w, v'⟩, hmem, hw⟩ := List.exists_of_findSome?_eq_some h
  obtain ⟨tail, htail, heq⟩ := Option.map_eq_some_iff.mp hw
  cases heq
  exact ⟨w, hmem, afterWord_sound htail⟩

theorem word_no_line_feed {p : String × Value} (h : p ∈ words) :
    ('\n' : CodePoint) ∉ Text.ofString p.1 := by
  simp only [words, List.mem_cons, List.not_mem_nil, or_false] at h
  rcases h with rfl | rfl | rfl | rfl | rfl | rfl <;> decide

theorem wordAhead_append {t : Text} (h : Ended t) (more : Text) :
    wordAhead (t ++ more) = (wordAhead t).map fun p => (p.1, p.2 ++ more) := by
  have among : ∀ ws : List (String × Value), (∀ p ∈ ws, p ∈ words) →
      (ws.findSome? fun p => (afterWord? p.1 (t ++ more)).map fun rest => (p.2, rest)) =
        (ws.findSome? fun p => (afterWord? p.1 t).map fun rest => (p.2, rest)).map
          fun p => (p.1, p.2 ++ more) := by
    intro ws hws
    induction ws with
    | nil => rfl
    | cons p ws ih =>
      rw [List.findSome?_cons, List.findSome?_cons,
        afterWord_append h (word_no_line_feed (hws p (by simp)))]
      cases afterWord? p.1 t with
      | none => exact ih fun q hq => hws q (by simp [hq])
      | some rest => rfl
  exact among words fun _ hp => hp

theorem minusAhead_append {t : Text} (h : t ≠ []) (more : Text) :
    minusAhead (t ++ more) = ((minusAhead t).1, (minusAhead t).2 ++ more) := by
  obtain ⟨c, t, rfl⟩ := List.exists_cons_of_ne_nil h
  simp only [List.cons_append, minusAhead]
  split <;> rfl

theorem minusAhead_ended {t : Text} (h : Ended t) : Ended (minusAhead t).2 := by
  obtain ⟨c, t, rfl⟩ := List.exists_cons_of_ne_nil (ended_ne_nil h)
  simp only [minusAhead]
  split
  · rename_i hc
    exact ended_tail h (by rw [hc]; decide)
  · exact h

theorem scalar_sound {t rest : Text} {v : Value} (h : scalar t = .ok (v, rest)) :
    ∃ s, t = s ++ rest ∧ Document s v := by
  rw [scalar_eq] at h
  cases hword : wordAhead t with
  | some p =>
    rw [hword] at h
    cases h
    obtain ⟨w, hmem, ht⟩ := wordAhead_sound hword
    exact ⟨_, ht, .word hmem⟩
  | none =>
    simp only [hword] at h
    cases hn : unsignedNumber (minusAhead t).1 (minusAhead t).2 with
    | none => simp [hn] at h
    | some r =>
      simp only [hn, Option.getD_some] at h
      rw [h] at hn
      obtain ⟨s, hs, hnumber⟩ := unsignedNumber_sound hn
      cases t with
      | nil => exact ⟨s, hs, .number (.positive hnumber)⟩
      | cons c t =>
        by_cases hc : c = '-'
        · simp only [minusAhead, if_pos hc] at hs hnumber
          exact ⟨'-' :: s, by rw [hs, hc]; rfl, .number (.negative hnumber)⟩
        · simp only [minusAhead, if_neg hc] at hs hnumber
          exact ⟨s, hs, .number (.positive hnumber)⟩

theorem scalar_append {t : Text} (h : Ended t) (more : Text) :
    scalar (t ++ more) = extend more (scalar t) := by
  rw [scalar_eq, scalar_eq, wordAhead_append h, minusAhead_append (ended_ne_nil h),
    unsignedNumber_append (minusAhead_ended h)]
  cases wordAhead t with
  | some p => rfl
  | none => cases unsignedNumber (minusAhead t).1 (minusAhead t).2 <;> rfl

theorem scalar_word {w : String} {v : Value} (h : (w, v) ∈ words) (rest : Text) :
    scalar (Text.ofString w ++ rest) = .ok (v, rest) := by
  simp only [words, List.mem_cons, Prod.mk.injEq, List.not_mem_nil, or_false] at h
  rcases h with ⟨rfl, rfl⟩ | ⟨rfl, rfl⟩ | ⟨rfl, rfl⟩ | ⟨rfl, rfl⟩ | ⟨rfl, rfl⟩ | ⟨rfl, rfl⟩ <;> rfl

theorem wordAhead_none {t : Text}
    (h : ∀ p ∈ words, ∀ tail, Text.ofString p.1 ++ tail ≠ t) : wordAhead t = none := by
  unfold wordAhead
  rw [List.findSome?_eq_none_iff]
  intro p hp
  rw [Option.map_eq_none_iff]
  unfold afterWord?
  rw [if_neg]
  intro hprefix
  obtain ⟨tail, htail⟩ := List.isPrefixOf_iff_prefix.mp hprefix
  exact h p hp tail htail

/-- No word begins with a digit, and none with a minus and a digit. -/
theorem no_word_ahead_of_digit {c : CodePoint} {t : Text} (hc : c.isAsciiDigit = true) :
    wordAhead (c :: t) = none ∧ wordAhead ('-' :: c :: t) = none := by
  constructor
  · apply wordAhead_none
    intro p hp tail h
    simp only [words, List.mem_cons, List.not_mem_nil, or_false] at hp
    rcases hp with rfl | rfl | rfl | rfl | rfl | rfl <;>
      (obtain rfl := (List.cons.inj h).1; exact absurd hc (by decide))
  · apply wordAhead_none
    intro p hp tail h
    simp only [words, List.mem_cons, List.not_mem_nil, or_false] at hp
    rcases hp with rfl | rfl | rfl | rfl | rfl | rfl
    · exact absurd (List.cons.inj h).1 (by decide)
    · exact absurd (List.cons.inj h).1 (by decide)
    · exact absurd (List.cons.inj h).1 (by decide)
    · exact absurd (List.cons.inj h).1 (by decide)
    · exact absurd (List.cons.inj h).1 (by decide)
    · obtain rfl := (List.cons.inj (List.cons.inj h).2).1
      exact absurd hc (by decide)

theorem unsigned_head {negative : Bool} {s : Text} {v : Value} (h : Unsigned negative s v) :
    ∃ c t, s = c :: t ∧ c.isAsciiDigit = true := by
  have head {w : Text} (hw : Whole w) (t : Text) :
      ∃ c t', w ++ t = c :: t' ∧ c.isAsciiDigit = true := by
    obtain ⟨hne, hd⟩ := whole_digits hw
    obtain ⟨c, w, rfl⟩ := List.exists_cons_of_ne_nil hne
    exact ⟨c, w ++ t, rfl, hd c (by simp)⟩
  cases h with
  | integer hw _ => simpa using head hw []
  | real hw _ _ _ => exact head hw _

theorem scalar_number {s rest : Text} {v : Value} (h : Number s v) (hrest : NumberStops rest) :
    scalar (s ++ rest) = .ok (v, rest) := by
  rw [scalar_eq]
  cases h with
  | positive h =>
    have hn := unsignedNumber_complete h hrest
    obtain ⟨c, t, rfl, hc⟩ := unsigned_head h
    have hm : c ≠ '-' := by rintro rfl; exact absurd hc (by decide)
    rw [List.cons_append] at hn ⊢
    simp only [(no_word_ahead_of_digit hc).1, minusAhead, if_neg hm, hn, Option.getD_some]
  | negative h =>
    have hn := unsignedNumber_complete h hrest
    obtain ⟨c, t, rfl, hc⟩ := unsigned_head h
    rw [List.cons_append] at hn
    simp only [List.cons_append, (no_word_ahead_of_digit hc).2, minusAhead, if_true, hn,
      Option.getD_some]

/-- A word or a number that is not there is missed where it should begin. -/
theorem scalar_fault {t rest : Text} {fault : Fault}
    (h : scalar t = .error (.malformed fault rest)) : rest = t := by
  rw [scalar_eq] at h
  cases hword : wordAhead t with
  | some p => simp [hword] at h
  | none =>
    simp only [hword, unsignedNumber_parts] at h
    cases hw : wholePart? (minusAhead t).2 with
    | none =>
      simp only [hw, Option.map_none, Option.getD_none] at h
      cases h
      rfl
    | some p =>
      simp only [hw, Option.map_some, Option.getD_some, numberOf] at h
      split at h
      · split at h <;> cases h
      · cases h

end FileWatch.Json
