import FileWatch.Proofs.Json.Documents
/-!
Integers with too many digits. Where one stands in a document that is well-formed up to it, the
reader gives up in a way of its own; the grammar says which texts these are.
-/

namespace FileWatch.Json

variable {α β : Type}

inductive Place where
  | value
  | items
  | members

structure IntegerStops (rest : Text) : Prop where
  digits : DigitsStop rest
  fraction : ∀ s ds more, rest = s ++ more → Fraction s ds → s = []
  exponent : ∀ s power? more, rest = s ++ more → Exponent s power? → s = []

/-- An integer of `n` digits, with `n` over the limit, stands where everything in front of it is
well-formed; nothing is said of what comes behind it. -/
inductive Overlong (n : Nat) : Place → Text → Prop where
  | positive {w rest} : Whole w → w.length = n → Numeral.digitLimit < n → IntegerStops rest →
      Overlong n .value (w ++ rest)
  | negative {w rest} : Whole w → w.length = n → Numeral.digitLimit < n → IntegerStops rest →
      Overlong n .value ('-' :: (w ++ rest))
  | list {w t} : Spaces w → Overlong n .items t → Overlong n .value ('[' :: (w ++ t))
  | dict {w t} : Spaces w → Overlong n .members t → Overlong n .value ('\x7b' :: (w ++ t))
  | item {t} : Overlong n .value t → Overlong n .items t
  | laterItem {s v w w' t} : Spells s (.value v) → Spaces w → Spaces w' → Overlong n .items t →
      Overlong n .items (s ++ (w ++ (',' :: (w' ++ t) : Text)))
  | member {k key w w' t} : Characters k key → Spaces w → Spaces w' → Overlong n .value t →
      Overlong n .members ('"' :: (k ++ ('"' :: (w ++ (':' :: (w' ++ t) : Text)) : Text)))
  | laterMember {s key v w w' t} : Spells s (.member key v) → Spaces w → Spaces w' →
      Overlong n .members t → Overlong n .members (s ++ (w ++ (',' :: (w' ++ t) : Text)))

/-! Numbers. -/

theorem spanDigits_some {ds : Text} (h : Digits ds) (more : Text) :
    (spanDigits (ds ++ more)).1 ≠ [] := by
  obtain ⟨d, ds, rfl⟩ := List.exists_cons_of_ne_nil h.1
  simp [spanDigits, h.2 d (by simp)]

theorem spanDigits_stop (t : Text) : DigitsStop (spanDigits t).2 := by
  intro c more h
  have hne : t.dropWhile CodePoint.isAsciiDigit ≠ [] := by
    change (spanDigits t).2 ≠ []
    simp [h]
  have hhead := List.head_dropWhile_not CodePoint.isAsciiDigit hne
  change ((spanDigits t).2.head hne).isAsciiDigit = false at hhead
  simpa only [h, List.head_cons] using hhead

theorem wholePart_stop {t w rest : Text} (h : wholePart? t = some (w, rest))
    (hw : Numeral.digitLimit < w.length) : DigitsStop rest := by
  unfold wholePart? at h
  cases t with
  | nil => cases h
  | cons c t =>
    by_cases hz : c = '0'
    · simp only [hz, if_true, Option.some.injEq, Prod.mk.injEq] at h
      rw [← h.1] at hw
      exact absurd hw (by decide)
    · by_cases hd : c.isAsciiDigit = true
      · simp only [if_neg hz, hd, if_true, Option.some.injEq] at h
        have hstop := spanDigits_stop (c :: t)
        rwa [h] at hstop
      · simp [hz, hd] at h

theorem integerStops_parts {rest : Text} (h : DigitsStop rest) :
    IntegerStops rest ↔ fractionPart rest = ([], rest) ∧ (exponentPart rest).1 = none := by
  constructor
  · intro hstop
    obtain ⟨s, hs, hfraction⟩ := fractionPart_sound rest
    obtain rfl := hstop.fraction s _ _ hs hfraction
    obtain ⟨s, hs', hexponent⟩ := exponentPart_sound rest
    obtain rfl := hstop.exponent s _ _ hs' hexponent
    generalize (exponentPart rest).1 = power? at hexponent ⊢
    generalize hplaces : fractionPart rest = parts at hs hfraction ⊢
    obtain ⟨places, behind⟩ := parts
    cases hfraction
    cases hexponent
    exact ⟨by rw [hs]; rfl, rfl⟩
  · rintro ⟨hfraction, hexponent⟩
    refine ⟨h, ?_, ?_⟩
    · rintro s ds more rfl hs
      cases hs with
      | absent => rfl
      | present hd =>
        have hne := spanDigits_some hd more
        have hplaces := congrArg Prod.fst hfraction
        simp [fractionPart, hne] at hplaces
    · rintro s power? more rfl hs
      cases hs with
      | absent => rfl
      | present hm hsign hd =>
        have hne := spanDigits_some hd more
        rw [List.cons_append, List.append_assoc, exponentPart_mark hm, takeSign_complete hsign hd]
          at hexponent
        simp [hne] at hexponent

/-- Where no number goes on, no integer does. -/
theorem numberStops_integer {rest : Text} (h : NumberStops rest) : IntegerStops rest := by
  refine ⟨h.digits, ?_, ?_⟩
  · rintro s ds more rfl hs
    cases hs with
    | absent => rfl
    | present _ => exact absurd rfl (h _ _ rfl).2.1
  · rintro s power? more rfl hs
    cases hs with
    | absent => rfl
    | present hm _ _ =>
      rw [(h _ _ rfl).2.2] at hm
      cases hm

theorem unsignedNumber_overlong {negative : Bool} {t : Text} {n : Nat} :
    unsignedNumber negative t = some (.error (.longInteger n)) ↔
      ∃ w rest, t = w ++ rest ∧ Whole w ∧ w.length = n ∧ Numeral.digitLimit < n ∧
        IntegerStops rest := by
  rw [unsignedNumber_parts]
  constructor
  · intro h
    obtain ⟨⟨w, rest⟩, hwhole, hnumber⟩ := Option.map_eq_some_iff.mp h
    obtain ⟨rfl, hw⟩ := wholePart_sound hwhole
    unfold numberOf at hnumber
    dsimp only at hnumber
    split_ifs at hnumber with hint hlimit
    cases hnumber
    have hstop := wholePart_stop hwhole hlimit
    obtain ⟨hplaces, hpower⟩ := Bool.and_eq_true_iff.mp hint
    rw [List.isEmpty_iff] at hplaces
    rw [Option.isNone_iff_eq_none] at hpower
    -- Without places the fraction took nothing.
    obtain ⟨s, hs, hfraction⟩ := fractionPart_sound rest
    rw [hplaces] at hfraction
    have hnothing : s = [] := by
      cases hfraction with
      | absent => rfl
      | present hd => exact absurd rfl hd.1
    rw [hnothing, List.nil_append] at hs
    have hparts : fractionPart rest = ([], rest) := Prod.ext hplaces hs.symm
    rw [← hs] at hpower
    exact ⟨w, rest, rfl, hw, rfl, hlimit, (integerStops_parts hstop).mpr ⟨hparts, hpower⟩⟩
  · rintro ⟨w, rest, rfl, hw, rfl, hlimit, hstop⟩
    obtain ⟨hparts, hpower⟩ := (integerStops_parts hstop.digits).mp hstop
    simp [wholePart_complete hw hstop.digits, hparts, hpower, numberOf, hlimit]

theorem scalar_overlong_sound {t : Text} {n : Nat} (h : scalar t = .error (.longInteger n)) :
    Overlong n .value t := by
  rw [scalar_eq] at h
  cases hword : wordAhead t with
  | some p => simp [hword] at h
  | none =>
    simp only [hword] at h
    cases hnumber : unsignedNumber (minusAhead t).1 (minusAhead t).2 with
    | none => simp [hnumber] at h
    | some r =>
      rw [hnumber, Option.getD_some] at h
      rw [h] at hnumber
      obtain ⟨w, rest, ht, hw, hlength, hlimit, hstop⟩ := unsignedNumber_overlong.mp hnumber
      cases t with
      | nil =>
        obtain ⟨rfl, rfl⟩ := List.append_eq_nil_iff.mp ht.symm
        exact absurd rfl (whole_digits hw).1
      | cons c t =>
        by_cases hc : c = '-'
        · simp only [minusAhead, if_pos hc] at ht
          rw [ht, hc]
          exact .negative hw hlength hlimit hstop
        · simp only [minusAhead, if_neg hc] at ht
          rw [ht]
          exact .positive hw hlength hlimit hstop

theorem whole_head {w : Text} (h : Whole w) (rest : Text) :
    ∃ c t, w ++ rest = c :: t ∧ c.isAsciiDigit = true := by
  obtain ⟨hne, hd⟩ := whole_digits h
  obtain ⟨c, w, rfl⟩ := List.exists_cons_of_ne_nil hne
  exact ⟨c, w ++ rest, rfl, hd c (by simp)⟩

theorem scalar_overlong_complete {w rest : Text} {n : Nat} (hw : Whole w) (hlength : w.length = n)
    (hlimit : Numeral.digitLimit < n) (hstop : IntegerStops rest) :
    scalar (w ++ rest) = .error (.longInteger n) ∧
      scalar ('-' :: (w ++ rest)) = .error (.longInteger n) := by
  have hnumber (negative : Bool) : unsignedNumber negative (w ++ rest) =
      some (.error (.longInteger n)) :=
    unsignedNumber_overlong.mpr ⟨w, rest, rfl, hw, hlength, hlimit, hstop⟩
  obtain ⟨c, t, hcons, hc⟩ := whole_head hw rest
  rw [hcons] at hnumber ⊢
  obtain ⟨hplain, hminus⟩ := no_word_ahead_of_digit (t := t) hc
  have hm : c ≠ '-' := by
    rintro rfl
    exact absurd hc (by decide)
  rw [scalar_eq, scalar_eq, hplain, hminus]
  simp only [minusAhead, if_neg hm, if_true, hnumber, Option.getD_some, and_self]

/-! What is given up at is overlong. -/

theorem andThen_error {r : Reading α} {k : α → Text → Reading β} {e : DecodeError}
    (h : andThen r k = .error e) :
    r = .error e ∨ ∃ a rest, r = .ok (a, rest) ∧ k a rest = .error e := by
  cases r with
  | error e' =>
    cases h
    exact Or.inl rfl
  | ok p => exact Or.inr ⟨p.1, p.2, rfl, h⟩

theorem token_overlong {fault : Fault} {t : Text} {k : CodePoint → Text → Reading β} {n : Nat}
    (h : token fault t k = .error (.longInteger n)) :
    ∃ w d more, Spaces w ∧ t = w ++ d :: more ∧ k d more = .error (.longInteger n) := by
  obtain ⟨w, hw, hsplit⟩ := skipSpace_split t
  unfold token at h
  cases hs : skipSpace t with
  | nil => simp [hs] at h
  | cons d more =>
    simp only [hs] at h
    exact ⟨w, d, more, hw, by rw [← hs]; exact hsplit, h⟩

theorem escape_malformed {opening t : Text} {e : DecodeError} (h : escape opening t = .error e) :
    ∃ fault rest, e = .malformed fault rest := by
  unfold escape unicodeEscape at h
  repeat' split at h
  all_goals first
    | exact ⟨_, _, (Except.error.inj h).symm⟩
    | cases h

/-- A string holds no integer. -/
theorem string_malformed {opening t : Text} {skip : Nat} {e : DecodeError}
    (h : string opening skip t = .error e) : ∃ fault rest, e = .malformed fault rest := by
  fun_induction string opening skip t with
  | case1 => exact ⟨_, _, (Except.error.inj h).symm⟩
  | case2 _ _ _ ih => exact ih h
  | case3 => cases h
  | case4 t point width hescape _ ih => exact ih (push_error h)
  | case5 t e' hescape _ =>
    cases h
    exact escape_malformed hescape
  | case6 => exact ⟨_, _, (Except.error.inj h).symm⟩
  | case7 c t _ _ _ ih => exact ih (push_error h)

def Exposed (place : Place) (read : Text → Reading α) : Prop :=
  ∀ t n, read t = .error (.longInteger n) → Overlong n place t

theorem bracketed_exposed {fault : Fault} {opening close : CodePoint} {empty : Value}
    {build : α → Value} {contents : Text → Reading α} {place : Place}
    (rule : ∀ {n w t}, Spaces w → Overlong n place t → Overlong n .value (opening :: (w ++ t)))
    (hc : Exposed place contents) {t : Text} {n : Nat}
    (h : bracketed fault close empty build contents t = .error (.longInteger n)) :
    Overlong n .value (opening :: t) := by
  obtain ⟨w, d, more, hw, rfl, hcontents⟩ := token_overlong h
  by_cases hclose : d = close
  · rw [if_pos hclose] at hcontents
    cases hcontents
  · rw [if_neg hclose] at hcontents
    rcases andThen_error hcontents with hread | ⟨a, rest, -, hbuild⟩
    · exact rule hw (hc _ _ hread)
    · cases hbuild

theorem listed_exposed {p : α → Part} {close : CodePoint} {place : Place}
    {element : Text → Reading α} {others : Text → Reading (List α)}
    (later : ∀ {n s a w w' t}, Spells s (p a) → Spaces w → Spaces w' → Overlong n place t →
      Overlong n place (s ++ (w ++ (',' :: (w' ++ t) : Text))))
    (hsound : Sound p element) (he : Exposed place element) (ho : Exposed place others) :
    Exposed place fun t => listed close (element t) others := by
  intro t n h
  rcases andThen_error h with hread | ⟨a, rest, hread, hrest⟩
  · exact he t n hread
  · obtain ⟨s, rfl, hs⟩ := hsound t a rest hread
    obtain ⟨w, d, more, hw, rfl, hothers⟩ := token_overlong hrest
    by_cases hclose : d = close
    · rw [if_pos hclose] at hothers
      cases hothers
    · rw [if_neg hclose] at hothers
      by_cases hcomma : d = ','
      · rw [if_pos hcomma] at hothers
        rcases andThen_error hothers with hread' | ⟨as, rest', -, hlist⟩
        · obtain ⟨w', hw', hsplit⟩ := skipSpace_split more
          rw [hcomma, hsplit]
          exact later hs hw hw' (ho _ _ hread')
        · cases hlist
      · rw [if_neg hcomma] at hothers
        cases hothers

theorem memberWithin_exposed {m : Nat} (hv : Exposed .value (valueWithin m)) :
    Exposed .members (memberWithin m) := by
  intro t n h
  unfold memberWithin at h
  cases t with
  | nil => cases h
  | cons q body =>
    by_cases hq : q = '"'
    · simp only [if_pos hq] at h
      rcases andThen_error h with hstring | ⟨key, rest, hstring, hrest⟩
      · obtain ⟨fault, rest, he⟩ := string_malformed hstring
        cases he
      · obtain ⟨k, hk, hchars⟩ := string_sound hstring
        obtain ⟨w, d, more, hw, rfl, hvalue⟩ := token_overlong hrest
        by_cases hcolon : d = ':'
        · rw [if_pos hcolon] at hvalue
          rcases andThen_error hvalue with hread | ⟨v, rest', -, hmember⟩
          · obtain ⟨w', hw', hsplit⟩ := skipSpace_split more
            rw [List.drop_zero] at hk
            rw [hq, hk, hcolon, hsplit]
            exact .member hchars hw hw' (hv _ _ hread)
          · cases hmember
        · rw [if_neg hcolon] at hvalue
          cases hvalue
    · simp only [if_neg hq] at h
      cases h

theorem within_exposed (m : Nat) :
    Exposed .value (valueWithin m) ∧ Exposed .items (itemsWithin m) ∧
      Exposed .members (membersWithin m) := by
  induction m with
  | zero =>
    refine ⟨?_, ?_, ?_⟩ <;> intro t n h <;> cases h
  | succ m ih =>
    obtain ⟨hv, hi, hm⟩ := ih
    refine ⟨?_, ?_, ?_⟩
    · intro t n h
      cases t with
      | nil => cases h
      | cons c t =>
        rcases value_kinds c with rfl | rfl | rfl | hc
        · rw [valueWithin_string] at h
          rcases andThen_error h with hstring | ⟨x, rest, -, htext⟩
          · obtain ⟨fault, rest, he⟩ := string_malformed hstring
            cases he
          · cases htext
        · rw [valueWithin_list] at h
          exact bracketed_exposed .list hi h
        · rw [valueWithin_dict] at h
          exact bracketed_exposed .dict hm h
        · rw [valueWithin_scalar hc] at h
          exact scalar_overlong_sound h
    · intro t n h
      rw [itemsWithin_succ] at h
      exact listed_exposed .laterItem (within_sound m).1 (fun t n h => .item (hv t n h)) hi t n h
    · intro t n h
      rw [membersWithin_succ] at h
      exact listed_exposed (p := fun e : Text × Value => .member e.1 e.2) .laterMember
        (memberWithin_sound (within_sound m).1) (memberWithin_exposed hv) hm t n h

/-! What is overlong is given up at. -/

theorem overlong_begins {n : Nat} {place : Place} {t : Text} (h : Overlong n place t) :
    Begins t := by
  induction h with
  | positive hw _ _ _ => exact begins_append (digits_begins (whole_digits hw)) _
  | negative _ _ _ _ | list _ _ _ | dict _ _ _ | member _ _ _ _ _ =>
    exact begins_cons (by decide) _
  | item _ ih => exact ih
  | laterItem hs _ _ _ _ | laterMember hs _ _ _ _ => exact begins_append (spells_begins hs) _

/-- How a place is given up at, with how many steps. -/
def GivenUp (n : Nat) (t : Text) : Place → Prop
  | .value => ∀ m, 2 * t.length + 1 ≤ m → valueWithin m t = .error (.longInteger n)
  | .items => ∀ m, 2 * t.length + 2 ≤ m → itemsWithin m t = .error (.longInteger n)
  | .members => ∀ m, 2 * t.length + 2 ≤ m → membersWithin m t = .error (.longInteger n)

theorem bracketed_error {fault : Fault} {close : CodePoint} {empty : Value} {build : α → Value}
    {contents : Text → Reading α} {w t : Text} {e : DecodeError} (hw : Spaces w) (ht : Begins t)
    (hclose : close = ']' ∨ close = '\x7d') (hc : contents t = .error e) :
    bracketed fault close empty build contents (w ++ t) = .error e := by
  obtain ⟨c, t, rfl, hopen⟩ := ht
  have hne : c ≠ close := by
    rcases hclose with rfl | rfl
    · exact (opens_not_closing hopen).1
    · exact (opens_not_closing hopen).2
  simp only [bracketed, token_spaces _ hw (opens_not_space hopen), if_neg hne, hc, andThen]

theorem listed_error {close : CodePoint} {element : Reading α} {others : Text → Reading (List α)}
    {e : DecodeError} (he : element = .error e) : listed close element others = .error e := by
  rw [he]
  rfl

theorem listed_later {close : CodePoint} {element : Reading α} {others : Text → Reading (List α)}
    {a : α} {w w' t : Text} {e : DecodeError} (hw : Spaces w) (hw' : Spaces w') (ht : Begins t)
    (hclose : close ≠ ',') (he : element = .ok (a, w ++ (',' :: (w' ++ t) : Text)))
    (ho : others t = .error e) : listed close element others = .error e := by
  have hcomma : isSpace ',' = false := by decide
  rw [he]
  simp only [listed, andThen, token_spaces _ hw hcomma, if_neg hclose.symm, if_true,
    skipSpace_spaces hw', skipSpace_begins ht, ho]

theorem overlong_given_up {n : Nat} {place : Place} {t : Text} (h : Overlong n place t) :
    GivenUp n t place := by
  have scalar_read {m : Nat} {c : CodePoint} {t : Text} (hm : 2 * (c :: t).length + 1 ≤ m)
      (hc : BeginsScalar c) : valueWithin m (c :: t) = scalar (c :: t) := by
    obtain ⟨m, rfl⟩ := Nat.exists_eq_succ_of_ne_zero (by omega : m ≠ 0)
    exact valueWithin_scalar hc
  -- One case for each production. It costs two steps at most, which its own characters pay for.
  induction h with
  | @positive w rest hw hlength hlimit hstop =>
    intro m hm
    have hread := (scalar_overlong_complete hw hlength hlimit hstop).1
    obtain ⟨c, t, hcons, hc⟩ := whole_head hw rest
    rw [hcons] at hread hm ⊢
    rw [scalar_read hm, hread]
    refine ⟨?_, ?_, ?_⟩ <;> · rintro rfl; exact absurd hc (by decide)
  | negative hw hlength hlimit hstop =>
    intro m hm
    rw [scalar_read hm ⟨by decide, by decide, by decide⟩,
      (scalar_overlong_complete hw hlength hlimit hstop).2]
  | list hw ht ih =>
    intro m hm
    obtain ⟨m, rfl⟩ := Nat.exists_eq_succ_of_ne_zero (by omega : m ≠ 0)
    simp only [List.length_cons, List.length_append] at hm
    rw [valueWithin_list]
    exact bracketed_error hw (overlong_begins ht) (.inl rfl) (ih m (by omega))
  | dict hw ht ih =>
    intro m hm
    obtain ⟨m, rfl⟩ := Nat.exists_eq_succ_of_ne_zero (by omega : m ≠ 0)
    simp only [List.length_cons, List.length_append] at hm
    rw [valueWithin_dict]
    exact bracketed_error hw (overlong_begins ht) (.inr rfl) (ih m (by omega))
  | item _ ih =>
    intro m hm
    obtain ⟨m, rfl⟩ := Nat.exists_eq_succ_of_ne_zero (by omega : m ≠ 0)
    rw [itemsWithin_succ]
    exact listed_error (ih m (by omega))
  | @laterItem s v w w' t hs hw hw' ht ih =>
    intro m hm
    obtain ⟨m, rfl⟩ := Nat.exists_eq_succ_of_ne_zero (by omega : m ≠ 0)
    simp only [List.length_cons, List.length_append] at hm
    rw [itemsWithin_succ]
    have hstop := numberStops_spaces hw (closing_stops (.inr (.inr rfl)) (w' ++ t))
    refine listed_later (a := v) hw hw' (overlong_begins ht) (by decide) ?_ (ih m (by omega))
    exact spells_read hs m _ (by omega) fun _ => hstop
  | @member k key w w' t hk hw hw' ht ih =>
    intro m hm
    obtain ⟨m, rfl⟩ := Nat.exists_eq_succ_of_ne_zero (by omega : m ≠ 0)
    simp only [List.length_cons, List.length_append] at hm
    have hcolon : isSpace ':' = false := by decide
    rw [membersWithin_succ]
    apply listed_error
    simp only [memberWithin, if_true, string_complete hk, andThen, token_spaces _ hw hcolon,
      skipSpace_spaces hw', skipSpace_begins (overlong_begins ht), ih m (by omega)]
  | @laterMember s key v w w' t hs hw hw' ht ih =>
    intro m hm
    obtain ⟨m, rfl⟩ := Nat.exists_eq_succ_of_ne_zero (by omega : m ≠ 0)
    simp only [List.length_cons, List.length_append] at hm
    rw [membersWithin_succ]
    have hstop := numberStops_spaces hw (closing_stops (.inr (.inr rfl)) (w' ++ t))
    refine listed_later (a := (key, v)) hw hw' (overlong_begins ht) (by decide) ?_
      (ih m (by omega))
    exact spells_read hs m _ (by omega) hstop

/-- A document is given up at for its digits exactly when the text is overlong. -/
theorem document_overlong {t : Text} {n : Nat} :
    document t = .error (.longInteger n) ↔ Overlong n .value t := by
  constructor
  · exact (within_exposed _).1 t n
  · exact fun h => overlong_given_up h _ (le_refl _)

end FileWatch.Json
