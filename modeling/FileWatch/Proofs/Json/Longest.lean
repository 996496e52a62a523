import FileWatch.Proofs.Json.Overlong
/-!
The document that is read first. Of the numbers at the front of a text the reader takes the longest;
any other document has its end in itself. Main results: what is read off a text that holds no
integer over the limit, and when nothing can be, in terms of the grammar alone.
-/

namespace FileWatch.Json

def Longest (d x : Text) : Prop := ∀ s v, Number s v → s <+: d ++ x → s.length ≤ d.length

/-- The document `d`, which denotes `v`, is what is read first where `x` stands behind it. -/
structure First (d : Text) (v : Value) (x : Text) : Prop where
  document : Document d v
  longest : Number d v → Longest d x

/-! Each part of a number is read at least as far as it goes. -/

theorem spanDigits_far {ds : Text} (h : ∀ c ∈ ds, c.isAsciiDigit = true) (x : Text) :
    (spanDigits (ds ++ x)).2.length ≤ x.length := by
  simp only [spanDigits, List.dropWhile_append_of_pos h]
  exact (List.dropWhile_suffix _).length_le

theorem exponentPart_far {e : Text} {power? : Option Int} (h : Exponent e power?) (x : Text) :
    (exponentPart (e ++ x)).2.length ≤ x.length := by
  cases h with
  | absent =>
    obtain ⟨s, hs, -⟩ := exponentPart_sound x
    have hlength := congrArg List.length hs
    simp only [List.length_append] at hlength
    simp only [List.nil_append]
    omega
  | @present mark sign negative ds hm hsign hd =>
    rw [List.cons_append, List.append_assoc, exponentPart_mark hm, takeSign_complete hsign hd,
      if_neg (by simpa using spanDigits_some hd x)]
    exact spanDigits_far hd.2 x

theorem exponent_stops {e : Text} {power? : Option Int} (h : Exponent e power?) (hne : e ≠ [])
    (x : Text) : DigitsStop (e ++ x) ∧ (e ++ x).head? ≠ some ('.' : CodePoint) := by
  cases h with
  | absent => exact absurd rfl hne
  | @present mark sign negative ds hm _ _ =>
    have hmark : mark.isAsciiDigit = false ∧ mark ≠ '.' := by
      simp only [Binary64.isExponentMark, Bool.or_eq_true, decide_eq_true_eq] at hm
      rcases hm with rfl | rfl <;> decide
    constructor
    · intro c more hc
      cases hc
      exact hmark.1
    · simpa using hmark.2

theorem fractionPart_far {f e ds : Text} {power? : Option Int} (hf : Fraction f ds)
    (he : Exponent e power?) (x : Text) :
    (exponentPart (fractionPart (f ++ (e ++ x))).2).2.length ≤ x.length := by
  by_cases hne : e = []
  · subst hne
    have hfar : (fractionPart (f ++ x)).2.length ≤ x.length := by
      cases hf with
      | absent =>
        obtain ⟨s, hs, -⟩ := fractionPart_sound x
        have hlength := congrArg List.length hs
        simp only [List.length_append] at hlength
        simp only [List.nil_append]
        omega
      | present hd =>
        have hdigits := spanDigits_some hd x
        simp only [List.cons_append, fractionPart]
        rw [if_pos (by simpa using hdigits)]
        exact spanDigits_far hd.2 x
    have hrest := exponentPart_far .absent (fractionPart (f ++ x)).2
    exact hrest.trans hfar
  · obtain ⟨hstop, hpoint⟩ := exponent_stops he hne x
    rw [fractionPart_complete hf hstop fun _ => hpoint]
    exact exponentPart_far he x

/-- Behind the whole part the text is left to fraction and exponent, unless more digits follow. -/
theorem wholePart_far {w : Text} (h : Whole w) (x : Text) :
    ∃ w' rest, wholePart? (w ++ x) = some (w', rest) ∧ rest.length ≤ x.length := by
  rcases h with rfl | ⟨⟨hne, hd⟩, hz⟩
  · exact ⟨['0'], x, rfl, le_refl _⟩
  · obtain ⟨c, ds, rfl⟩ := List.exists_cons_of_ne_nil hne
    have hc : c ≠ '0' := by simpa using hz
    refine ⟨(spanDigits (c :: ds ++ x)).1, (spanDigits (c :: ds ++ x)).2, ?_, spanDigits_far hd x⟩
    simp only [List.cons_append, wholePart?, if_neg hc, hd c (by simp), if_true]

theorem fraction_stops {f e ds : Text} {power? : Option Int} (hf : Fraction f ds)
    (he : Exponent e power?) (hne : f ++ e ≠ []) (x : Text) : DigitsStop (f ++ (e ++ x)) := by
  cases hf with
  | absent => exact (exponent_stops he hne x).1
  | present _ =>
    intro c more hc
    cases hc
    decide

theorem parts_far {w f e ds : Text} {power? : Option Int} (hw : Whole w) (hf : Fraction f ds)
    (he : Exponent e power?) (x : Text) :
    ∃ w' rest, wholePart? (w ++ (f ++ (e ++ x))) = some (w', rest) ∧
      (exponentPart (fractionPart rest).2).2.length ≤ x.length := by
  by_cases hne : f ++ e = []
  · obtain ⟨rfl, rfl⟩ := List.append_eq_nil_iff.mp hne
    obtain ⟨w', rest, hwhole, hrest⟩ := wholePart_far hw x
    have hfar := fractionPart_far .absent .absent rest
    exact ⟨w', rest, hwhole, hfar.trans hrest⟩
  · exact ⟨w, _, wholePart_complete hw (fraction_stops hf he hne x), fractionPart_far hf he x⟩

/-- A number at the front of a text is read at least to its end, or given up at for its digits. -/
def ReadFar (r : Reading Value) (t x : Text) : Prop :=
  (∃ n, r = .error (.longInteger n)) ∨
    ∃ s v rest, r = .ok (v, rest) ∧ t = s ++ rest ∧ Number s v ∧ rest.length ≤ x.length

theorem numberOf_rest (negative : Bool) (whole places : Text) (exponent : Option Int × Text) :
    (∃ n, numberOf negative whole places exponent = .error (.longInteger n)) ∨
      ∃ v, numberOf negative whole places exponent = .ok (v, exponent.2) := by
  unfold numberOf
  split
  · split
    · exact Or.inl ⟨_, rfl⟩
    · exact Or.inr ⟨_, rfl⟩
  · exact Or.inr ⟨_, rfl⟩

theorem unsigned_far {negative : Bool} {s : Text} {v : Value} (h : Unsigned negative s v)
    (x : Text) : ∃ r, unsignedNumber negative (s ++ x) = some r ∧
      ((∃ n, r = .error (.longInteger n)) ∨ ∃ v' rest, r = .ok (v', rest) ∧
        rest.length ≤ x.length) := by
  have hparts : ∃ w rest, wholePart? (s ++ x) = some (w, rest) ∧
      (exponentPart (fractionPart rest).2).2.length ≤ x.length := by
    cases h with
    | integer hw _ => exact parts_far hw .absent .absent x
    | real hw hf he _ =>
      simp only [List.append_assoc]
      exact parts_far hw hf he x
  obtain ⟨w, rest, hwhole, hfar⟩ := hparts
  rw [unsignedNumber_parts, hwhole]
  refine ⟨_, rfl, ?_⟩
  rcases numberOf_rest negative w (fractionPart rest).1 (exponentPart (fractionPart rest).2) with
    hlong | ⟨v', hok⟩
  · exact Or.inl hlong
  · exact Or.inr ⟨v', _, hok, hfar⟩

theorem number_far {s : Text} {v : Value} (h : Number s v) (x : Text) :
    ReadFar (scalar (s ++ x)) (s ++ x) x := by
  rw [scalar_eq]
  cases h with
  | positive h =>
    obtain ⟨r, hr, hfar⟩ := unsigned_far h x
    obtain ⟨c, t, rfl, hc⟩ := unsigned_head h
    have hm : c ≠ '-' := by
      rintro rfl
      exact absurd hc (by decide)
    rw [List.cons_append] at hr ⊢
    simp only [(no_word_ahead_of_digit hc).1, minusAhead, if_neg hm, hr, Option.getD_some]
    rcases hfar with hlong | ⟨v', rest, rfl, hrest⟩
    · exact Or.inl hlong
    · obtain ⟨s', hs', hnumber⟩ := unsignedNumber_sound hr
      exact Or.inr ⟨s', v', rest, rfl, hs', .positive hnumber, hrest⟩
  | negative h =>
    obtain ⟨r, hr, hfar⟩ := unsigned_far h x
    obtain ⟨c, t, rfl, hc⟩ := unsigned_head h
    rw [List.cons_append] at hr
    simp only [List.cons_append, (no_word_ahead_of_digit hc).2, minusAhead, if_true, hr,
      Option.getD_some]
    rcases hfar with hlong | ⟨v', rest, rfl, hrest⟩
    · exact Or.inl hlong
    · obtain ⟨s', hs', hnumber⟩ := unsignedNumber_sound hr
      exact Or.inr ⟨'-' :: s', v', rest, rfl, by rw [hs']; rfl, .negative hnumber, hrest⟩

theorem document_number {s : Text} {v : Value} (h : Number s v) (x : Text) :
    document (s ++ x) = scalar (s ++ x) := by
  obtain ⟨c, t, rfl, hc⟩ := number_begins_scalar h
  exact valueWithin_scalar hc

theorem numberStops_nil : NumberStops [] := by
  intro c more h
  cases h

theorem number_value {s : Text} {v v' : Value} (h : Number s v) (h' : Number s v') : v' = v := by
  have hread := scalar_number h numberStops_nil
  rw [scalar_number h' numberStops_nil] at hread
  exact (Prod.mk.inj (Except.ok.inj hread)).1

/-! Documents. -/

theorem document_first {d x : Text} {v : Value} (h : First d v x)
    (hshort : ∀ n, ¬ Overlong n .value (d ++ x)) : document (d ++ x) = .ok (v, x) := by
  by_cases hnumber : Number d v
  · have hread := document_number hnumber x
    rcases number_far hnumber x with ⟨n, hlong⟩ | ⟨s, v', rest, hok, hsplit, hs, hrest⟩
    · rw [hlong] at hread
      exact absurd (document_overlong.mp hread) (hshort n)
    · -- What was read is no longer than the document and leaves no more than is behind it.
      have hlonger := h.longest hnumber s v' hs ⟨rest, hsplit.symm⟩
      have hlength := congrArg List.length hsplit
      simp only [List.length_append] at hlength
      obtain ⟨rfl, rfl⟩ := List.append_inj hsplit (by omega)
      rw [hread, hok, number_value hnumber hs]
  · exact document_complete h.document fun hd => absurd hd hnumber

theorem first_document {t x : Text} {v : Value} (h : document t = .ok (v, x)) :
    ∃ d, t = d ++ x ∧ First d v x := by
  obtain ⟨d, rfl, hd⟩ := document_sound h
  refine ⟨d, rfl, hd, ?_⟩
  rintro - s v' hs ⟨y, hsplit⟩
  rw [← hsplit, document_number hs] at h
  rcases number_far hs y with ⟨n, hlong⟩ | ⟨s', w, rest, hok, -, -, hrest⟩
  · rw [hlong] at h
    cases h
  · rw [hok] at h
    obtain ⟨rfl, rfl⟩ := Prod.mk.inj (Except.ok.inj h)
    have hlength := congrArg List.length hsplit
    simp only [List.length_append] at hlength
    omega

/-- No document stands at the front of a text exactly when the reader meets a fault in it. -/
theorem document_missing {t : Text} (hshort : ∀ n, ¬ Overlong n .value t) :
    (∃ fault rest, document t = .error (.malformed fault rest)) ↔
      ∀ d v x, t = d ++ x → ¬ Document d v := by
  constructor
  · rintro ⟨fault, rest, h⟩ d v x rfl hd
    by_cases hnumber : Number d v
    · rw [document_number hnumber] at h
      rcases number_far hnumber x with ⟨n, hlong⟩ | ⟨s, v', rest', hok, -⟩
      · rw [hlong] at h
        cases h
      · rw [hok] at h
        cases h
    · rw [document_complete hd fun hn => absurd hn hnumber] at h
      cases h
  · intro hnone
    rcases hread : document t with (⟨fault, rest⟩ | n) | ⟨v, x⟩
    · exact ⟨fault, rest, rfl⟩
    · exact absurd (document_overlong.mp hread) (hshort n)
    · obtain ⟨d, hsplit, hd⟩ := document_sound hread
      exact absurd hd (hnone d v x hsplit)

end FileWatch.Json
