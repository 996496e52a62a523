import FileWatch.Proofs.Json.Readings
/-!
Strings of documents: the reader takes exactly what the grammar calls the characters of a string,
up to the closing quote, and what it has taken or refused does not change when more text comes in.
-/

namespace FileWatch.Json

theorem hexQuad_line_feed {a b c d : CodePoint} (h : ('\n' : CodePoint) ∈ [a, b, c, d]) :
    hexQuad? a b c d = none := by
  have none_there : hexDigit? '\n' = none := by decide
  simp only [List.mem_cons, List.not_mem_nil, or_false] at h
  unfold hexQuad?
  rcases h with rfl | rfl | rfl | rfl
  · simp [none_there]
  · cases hexDigit? a <;> simp [none_there]
  · cases hexDigit? a <;> cases hexDigit? b <;> simp [none_there]
  · cases hexDigit? a <;> cases hexDigit? b <;> cases hexDigit? c <;> simp [none_there]

/-- A line feed among the digits is a fault of the escape, however much text follows. -/
theorem unicodeEscape_line_feed {t : Text} (h : ('\n' : CodePoint) ∈ (t.drop 1).take 4) :
    unicodeEscape t = .error (.malformed .unicodeEscape t) := by
  unfold unicodeEscape
  split
  · rw [hexQuad_line_feed (by simpa using h)]
  · rfl

/-- In a short text that ends with a line feed, the line feed is among the digits, and it stays
there when more text comes in. -/
theorem line_feed_among_digits {x : CodePoint} {t : Text} (h : Ended t) (hl : t.length ≤ 4)
    (c : Text) : ('\n' : CodePoint) ∈ ((x :: (t ++ c)).drop 1).take 4 := by
  rw [List.drop_one, List.tail_cons, List.take_append, List.take_of_length_le hl]
  exact List.mem_append_left _ (ended_mem h)

/-- What the escape after a backslash can be. An escape of a high surrogate stands alone unless the
escape of a low one follows and is not the end of the text. -/
inductive EscapeRead : Text → CodePoint → Nat → Prop where
  | simple {letter point s} : simpleEscape? letter = some point →
      EscapeRead (letter :: s) point 1
  | unicode {a b c d point s} : hexQuad? a b c d = some point →
      (∀ s' r, s = s' ++ r → r ≠ [] → ¬ (point.isHighSurrogate = true ∧ LowSurrogateAhead s')) →
      EscapeRead ('u' :: a :: b :: c :: d :: s) point 5
  | pair {a b c d e f g h high low s} : hexQuad? a b c d = some high →
      high.isHighSurrogate = true → hexQuad? e f g h = some low → low.isLowSurrogate = true →
      EscapeRead ('u' :: a :: b :: c :: d :: '\\' :: 'u' :: e :: f :: g :: h :: s)
        (joinSurrogates high low) 11

theorem low_surrogate_in_full {next : CodePoint} {more s r : Text} (h : LowSurrogateAhead s)
    (hs : next :: more = s ++ r) (hr : r ≠ []) :
    next = '\\' ∧ ∃ e f g h low y ys, more = ('u' :: e :: f :: g :: h :: y :: ys : Text) ∧
      hexQuad? e f g h = some low ∧ low.isLowSurrogate = true := by
  obtain ⟨e, f, g, h, low, tail, rfl, hq, hl⟩ := h
  obtain ⟨rfl, hmore⟩ := List.cons.inj hs
  obtain ⟨y, ys, hy⟩ := List.exists_cons_of_ne_nil (l := tail ++ r) (by simp [hr])
  exact ⟨rfl, e, f, g, h, low, y, ys, by rw [hmore, ← hy]; rfl, hq, hl⟩

/-- Two escapes in full, which are a pair if the second one is a low surrogate behind a high one. -/
theorem unicodeEscape_two_read {a b c d next mark e f g i y first point : CodePoint} {ys : Text}
    {width : Nat} (hq : hexQuad? a b c d = some first)
    (h : unicodeEscape ('u' :: a :: b :: c :: d :: next :: mark :: e :: f :: g :: i :: y :: ys) =
      .ok (point, width)) :
    EscapeRead ('u' :: a :: b :: c :: d :: next :: mark :: e :: f :: g :: i :: y :: ys)
      point width := by
  unfold unicodeEscape at h
  simp only [hq] at h
  by_cases hp : (first.isHighSurrogate && next = '\\' && mark = 'u') = true
  · simp only [Bool.and_eq_true, decide_eq_true_eq] at hp
    obtain ⟨⟨hhigh, rfl⟩, rfl⟩ := hp
    simp only [hhigh, decide_true, Bool.and_self, if_true] at h
    cases hq' : hexQuad? e f g i with
    | none => simp [hq'] at h
    | some second =>
      simp only [hq'] at h
      by_cases hlow : second.isLowSurrogate = true
      · rw [if_pos hlow] at h
        simp only [Except.ok.injEq, Prod.mk.injEq] at h
        obtain ⟨rfl, rfl⟩ := h
        exact .pair hq hhigh hq' hlow
      · rw [if_neg hlow] at h
        cases h
        refine .unicode hq ?_
        rintro s' r hs hr ⟨-, hahead⟩
        obtain ⟨-, e', f', g', i', low, y', ys', heq', hq'', hl⟩ :=
          low_surrogate_in_full hahead hs hr
        cases heq'
        rw [hq'] at hq''
        cases hq''
        exact hlow hl
  · rw [if_neg hp] at h
    cases h
    refine .unicode hq ?_
    rintro s' r hs hr ⟨hhigh, hahead⟩
    obtain ⟨rfl, e', f', g', i', low, y', ys', heq', -, -⟩ := low_surrogate_in_full hahead hs hr
    cases heq'
    exact hp (by simp [hhigh])

theorem unicodeEscape_read {t : Text} {point : CodePoint} {width : Nat}
    (h : unicodeEscape ('u' :: t) = .ok (point, width)) : EscapeRead ('u' :: t) point width := by
  have hread := h
  unfold unicodeEscape at h
  split at h
  · rename_i u a b c d next more heq
    obtain ⟨-, rfl⟩ := List.cons.inj heq
    cases hq : hexQuad? a b c d with
    | none => simp [hq] at h
    | some first =>
      simp only [hq] at h
      split at h
      · exact unicodeEscape_two_read hq hread
      · rename_i hshort
        cases h
        refine .unicode hq ?_
        rintro s' r hs hr ⟨-, hahead⟩
        obtain ⟨-, e, f, g, i, low, y, ys, rfl, -, -⟩ := low_surrogate_in_full hahead hs hr
        exact hshort _ _ _ _ _ _ _ rfl
  · cases h

theorem escape_read {opening t : Text} {point : CodePoint} {width : Nat}
    (h : escape opening t = .ok (point, width)) : EscapeRead t point width := by
  unfold escape at h
  split at h
  · cases h
  · rename_i letter body
    by_cases hu : letter = 'u'
    · subst hu
      rw [if_pos rfl] at h
      exact unicodeEscape_read h
    · rw [if_neg hu] at h
      split at h
      · rename_i p hp
        cases h
        exact .simple hp
      · cases h

theorem push_ok {c : CodePoint} {r : Reading Text} {x rest : Text}
    (h : push c r = .ok (x, rest)) : ∃ y, r = .ok (y, rest) ∧ x = c :: y := by
  rcases r with e | ⟨y, more⟩
  · cases h
  · cases h
    exact ⟨y, rfl, rfl⟩

theorem string_sound {opening t x rest : Text} {skip : Nat}
    (h : string opening skip t = .ok (x, rest)) :
    ∃ s, t.drop skip = s ++ ('"' :: rest : Text) ∧ Characters s x := by
  fun_induction string opening skip t generalizing x with
  | case1 => cases h
  | case2 skip c t ih => exact ih h
  | case3 t =>
    cases h
    exact ⟨[], rfl, .nil⟩
  | case4 t point width hesc _ ih =>
    obtain ⟨y, hy, rfl⟩ := push_ok h
    obtain ⟨s, hs, hchars⟩ := ih hy
    cases escape_read hesc with
    | @simple letter _ body hp =>
      obtain rfl : body = s ++ ('"' :: rest : Text) := by simpa using hs
      exact ⟨'\\' :: letter :: s, rfl, .simple hp hchars⟩
    | @unicode a b c d _ body hq halone =>
      obtain rfl : body = s ++ ('"' :: rest : Text) := by simpa using hs
      exact ⟨'\\' :: 'u' :: a :: b :: c :: d :: s, rfl,
        .unicode hq (halone s _ rfl (List.cons_ne_nil _ _)) hchars⟩
    | @pair a b c d e f g i high low body hq hhigh hq' hlow =>
      obtain rfl : body = s ++ ('"' :: rest : Text) := by simpa using hs
      exact ⟨'\\' :: 'u' :: a :: b :: c :: d :: '\\' :: 'u' :: e :: f :: g :: i :: s, rfl,
        .pair hq hhigh hq' hlow hchars⟩
  | case5 => cases h
  | case6 => cases h
  | case7 c t hquote hback hcontrol ih =>
    obtain ⟨y, hy, rfl⟩ := push_ok h
    obtain ⟨s, hs, hchars⟩ := ih hy
    obtain rfl : t = s ++ ('"' :: rest : Text) := by simpa using hs
    exact ⟨c :: s, rfl, .plain (by omega) hquote hback hchars⟩

theorem string_skip (opening : Text) (skip : Nat) (t : Text) :
    string opening skip t = string opening 0 (t.drop skip) := by
  induction skip generalizing t with
  | zero => rfl
  | succ skip ih =>
    cases t with
    | nil => rfl
    | cons c t => exact ih t

theorem string_plain {opening t : Text} {c : CodePoint} (hc : 0x20 ≤ c.val) (hquote : c ≠ '"')
    (hback : c ≠ '\\') : string opening 0 (c :: t) = push c (string opening 0 t) := by
  rw [string, if_neg hquote, if_neg hback, if_neg (by omega)]

theorem string_escape {opening t : Text} {point : CodePoint} {width : Nat}
    (h : escape opening t = .ok (point, width)) :
    string opening 0 ('\\' :: t) = push point (string opening 0 (t.drop width)) := by
  rw [string, if_neg (by decide), if_pos rfl, h, ← string_skip]

theorem escape_simple {opening t : Text} {letter point : CodePoint}
    (h : simpleEscape? letter = some point) : escape opening (letter :: t) = .ok (point, 1) := by
  have hu : letter ≠ 'u' := by
    rintro rfl
    simp [show simpleEscape? 'u' = none by decide] at h
  simp only [escape, if_neg hu, h]

theorem escape_pair {opening t : Text} {a b c d e f g i high low y : CodePoint}
    (hq : hexQuad? a b c d = some high) (hhigh : high.isHighSurrogate = true)
    (hq' : hexQuad? e f g i = some low) (hlow : low.isLowSurrogate = true) :
    escape opening ('u' :: a :: b :: c :: d :: '\\' :: 'u' :: e :: f :: g :: i :: y :: t) =
      .ok (joinSurrogates high low, 11) := by
  simp [escape, unicodeEscape, hq, hhigh, hq', hlow]

theorem escape_alone {opening more : Text} {a b c d next point : CodePoint}
    (hq : hexQuad? a b c d = some point)
    (h : ∀ mark tail, more = mark :: tail → ¬ (next = '\\' ∧ mark = 'u')) :
    escape opening ('u' :: a :: b :: c :: d :: next :: more) = .ok (point, 5) := by
  simp only [escape, unicodeEscape, if_true, hq]
  split
  · rename_i mark e f g i y tail
    rw [if_neg]
    intro hp
    simp only [Bool.and_eq_true, decide_eq_true_eq] at hp
    exact h _ _ rfl ⟨hp.1.2, hp.2⟩
  · rfl

theorem escape_not_joined {opening t : Text} {a b c d e f g i y point second : CodePoint}
    (hq : hexQuad? a b c d = some point) (hq' : hexQuad? e f g i = some second)
    (h : ¬ (point.isHighSurrogate = true ∧ second.isLowSurrogate = true)) :
    escape opening ('u' :: a :: b :: c :: d :: '\\' :: 'u' :: e :: f :: g :: i :: y :: t) =
      .ok (point, 5) := by
  simp only [escape, unicodeEscape, if_true, hq, hq', decide_true, Bool.and_true]
  by_cases hhigh : point.isHighSurrogate = true
  · rw [if_pos hhigh, if_neg fun hlow => h ⟨hhigh, hlow⟩]
  · rw [if_neg hhigh]

/-- Inside a string every escape has its digits, so only the escape of a low surrogate can be taken
for the second half of a pair. -/
theorem escape_unicode {opening s x rest : Text} {a b c d point : CodePoint}
    (hq : hexQuad? a b c d = some point)
    (halone : ¬ (point.isHighSurrogate = true ∧ LowSurrogateAhead s)) (hs : Characters s x) :
    escape opening ('u' :: a :: b :: c :: d :: (s ++ ('"' :: rest : Text))) = .ok (point, 5) := by
  cases hs with
  | nil => exact escape_alone hq fun _ _ _ h => absurd h.1 (by decide)
  | plain _ _ hback _ => exact escape_alone hq fun _ _ _ h => hback h.1
  | @simple letter _ s _ hp _ =>
    refine escape_alone hq ?_
    rintro mark tail hmore ⟨-, rfl⟩
    obtain ⟨rfl, -⟩ := List.cons.inj hmore
    simp [show simpleEscape? 'u' = none by decide] at hp
  | @unicode e f g i low s _ hq' _ _ =>
    obtain ⟨y, ys, hy⟩ := List.exists_cons_of_ne_nil (l := s ++ ('"' :: rest : Text)) (by simp)
    simp only [List.cons_append, hy]
    refine escape_not_joined hq hq' ?_
    rintro ⟨hhigh, hlow⟩
    exact halone ⟨hhigh, e, f, g, i, low, s, rfl, hq', hlow⟩
  | @pair e f g i _ _ _ _ high _ s _ hq' _ _ _ _ =>
    refine escape_not_joined hq hq' ?_
    rintro ⟨hhigh, hlow⟩
    exact halone ⟨hhigh, e, f, g, i, high, _, rfl, hq', hlow⟩

theorem string_complete {opening s x : Text} (h : Characters s x) (rest : Text) :
    string opening 0 (s ++ ('"' :: rest : Text)) = .ok (x, rest) := by
  induction h with
  | nil => rfl
  | plain hc hquote hback _ ih => rw [List.cons_append, string_plain hc hquote hback, ih]; rfl
  | simple hp _ ih =>
    rw [List.cons_append, List.cons_append, string_escape (escape_simple hp), List.drop_one,
      List.tail_cons, ih]
    rfl
  | unicode hq halone hs ih =>
    simp only [List.cons_append]
    rw [string_escape (escape_unicode hq halone hs)]
    simp only [List.drop_succ_cons, List.drop_zero, ih]
    rfl
  | @pair _ _ _ _ _ _ _ _ _ _ s _ hq hhigh hq' hlow _ ih =>
    simp only [List.cons_append]
    obtain ⟨y, ys, hy⟩ := List.exists_cons_of_ne_nil (l := s ++ ('"' :: rest : Text)) (by simp)
    rw [hy, string_escape (escape_pair hq hhigh hq' hlow), ← hy]
    simp only [List.drop_succ_cons, List.drop_zero, ih]
    rfl

/-- An escape does not hold a line feed, so the text behind it is still ended. -/
theorem escape_read_ended {t : Text} {point : CodePoint} {width : Nat}
    (hr : EscapeRead t point width) (h : Ended t) : Ended (t.drop width) := by
  have digit {a b c d p : CodePoint} (hq : hexQuad? a b c d = some p) : d ≠ '\n' := by
    rintro rfl
    rw [hexQuad_line_feed (by simp)] at hq
    cases hq
  have behind (init : Text) {last : CodePoint} {s : Text} (hl : last ≠ '\n')
      (he : Ended (init ++ last :: s)) : Ended s :=
    ended_tail (ended_of_append he (List.cons_ne_nil _ _)) hl
  cases hr with
  | simple hp =>
    refine behind [] ?_ h
    rintro rfl
    simp [show simpleEscape? '\n' = none by decide] at hp
  | unicode hq _ => exact behind ['u', _, _, _] (digit hq) h
  | pair _ _ hq' _ => exact behind ['u', _, _, _, _, '\\', 'u', _, _, _] (digit hq') h

/-- A pair whose second escape is cut off by a line feed. Read alone the first escape stands, and
the fault is found in the second one; with more text it may be found at once. Its place is the same
either way. -/
theorem escape_cut_pair {opening tail : Text} {a b c d point : CodePoint}
    (hq : hexQuad? a b c d = some point) (h : Ended tail) (hl : tail.length ≤ 4) (more : Text) :
    escape opening ('u' :: a :: b :: c :: d :: '\\' :: 'u' :: tail) = .ok (point, 5) ∧
      string opening 5 ('u' :: a :: b :: c :: d :: '\\' :: 'u' :: tail) =
        .error (.malformed .unicodeEscape ('u' :: tail)) ∧
      (escape (opening ++ more) ('u' :: a :: b :: c :: d :: '\\' :: 'u' :: (tail ++ more)) =
          .ok (point, 5) ∨
        escape (opening ++ more) ('u' :: a :: b :: c :: d :: '\\' :: 'u' :: (tail ++ more)) =
          .error (.malformed .unicodeEscape ('u' :: (tail ++ more)))) := by
  have cut : unicodeEscape ('u' :: tail) = .error (.malformed .unicodeEscape ('u' :: tail)) := by
    simpa using unicodeEscape_line_feed (line_feed_among_digits h hl [])
  refine ⟨?_, ?_, ?_⟩
  · simp only [escape, unicodeEscape, if_true, hq]
    split
    · rename_i hlong
      simp only [List.cons.injEq] at hlong
      rw [hlong.2] at hl
      simp only [List.length_cons] at hl
      omega
    · rfl
  · rw [string_skip]
    simp only [List.drop_succ_cons, List.drop_zero]
    rw [string, if_neg (by decide), if_pos rfl, escape, if_pos rfl, cut]
  · have bad := line_feed_among_digits (x := 'u') h hl more
    simp only [escape, unicodeEscape, if_true, hq]
    split
    · rename_i mark e f g i y ys hlong
      obtain ⟨rfl, hlong⟩ := List.cons.inj hlong
      rw [hlong] at bad
      rw [hexQuad_line_feed (by simpa using bad), hlong]
      by_cases hhigh : point.isHighSurrogate = true
      · exact Or.inr (by simp [hhigh])
      · exact Or.inl (by simp [hhigh])
    · exact Or.inl rfl

theorem escape_append_two {opening ys : Text} {a b c d e f g i y point : CodePoint}
    (hq : hexQuad? a b c d = some point) (more : Text) :
    escape (opening ++ more)
        ('u' :: a :: b :: c :: d :: '\\' :: 'u' :: e :: f :: g :: i :: y :: (ys ++ more)) =
      (escape opening
        ('u' :: a :: b :: c :: d :: '\\' :: 'u' :: e :: f :: g :: i :: y :: ys)).mapError
        (DecodeError.extend more) := by
  simp only [escape, unicodeEscape, if_true, hq]
  by_cases hhigh : point.isHighSurrogate = true
  · cases hexQuad? e f g i with
    | none => simp [hhigh, Except.mapError, DecodeError.extend]
    | some second =>
      by_cases hlow : second.isLowSurrogate = true <;> simp [hhigh, hlow, Except.mapError]
  · simp [hhigh, Except.mapError]

theorem escape_append_alone {opening t : Text} {a b c d next point : CodePoint}
    (hq : hexQuad? a b c d = some point) (h : Ended (next :: t))
    (hpair : ¬ (next = '\\' ∧ t.head? = some ('u' : CodePoint))) (more : Text) :
    escape (opening ++ more) ('u' :: a :: b :: c :: d :: next :: (t ++ more)) =
      (escape opening ('u' :: a :: b :: c :: d :: next :: t)).mapError
        (DecodeError.extend more) := by
  rw [escape_alone hq, escape_alone hq]
  · rfl
  · rintro mark tail rfl hboth
    exact hpair ⟨hboth.1, by simp [hboth.2]⟩
  · rintro mark tail hmore ⟨rfl, rfl⟩
    cases t with
    | nil => exact absurd h (by decide)
    | cons m t =>
      obtain ⟨rfl, -⟩ := List.cons.inj hmore
      exact hpair ⟨rfl, rfl⟩

theorem escape_append_unicode {opening t : Text} (h : Ended t) (more : Text) :
    escape (opening ++ more) ('u' :: (t ++ more)) =
        (escape opening ('u' :: t)).mapError (DecodeError.extend more) ∨
      ∃ point rest, escape opening ('u' :: t) = .ok (point, 5) ∧
        string opening 5 ('u' :: t) = .error (.malformed .unicodeEscape rest) ∧
        escape (opening ++ more) ('u' :: (t ++ more)) =
          .error (.malformed .unicodeEscape (rest ++ more)) := by
  by_cases hl : t.length ≤ 4
  · have cut := unicodeEscape_line_feed (line_feed_among_digits (x := 'u') h hl [])
    have cut' := unicodeEscape_line_feed (line_feed_among_digits (x := 'u') h hl more)
    rw [List.append_nil] at cut
    simp only [escape, if_true, cut, cut']
    exact Or.inl rfl
  · rcases t with _ | ⟨a, _ | ⟨b, _ | ⟨c, _ | ⟨d, _ | ⟨next, t⟩⟩⟩⟩⟩ <;>
      simp only [List.length_cons, List.length_nil] at hl <;> try omega
    have hnext : Ended (next :: t) := ended_of_append (s := [a, b, c, d]) h (by simp)
    simp only [List.cons_append]
    cases hq : hexQuad? a b c d with
    | none =>
      exact Or.inl (by simp [escape, unicodeEscape, hq, Except.mapError, DecodeError.extend])
    | some point =>
      by_cases hpair : next = '\\' ∧ t.head? = some ('u' : CodePoint)
      · obtain ⟨rfl, hmark⟩ := hpair
        obtain ⟨tail, rfl⟩ := List.head?_eq_some_iff.mp hmark
        have htail : Ended tail := ended_tail (ended_tail hnext (by decide)) (by decide)
        by_cases hl' : tail.length ≤ 4
        · obtain ⟨hok, hstring, hmore⟩ := escape_cut_pair hq htail hl' more
          rcases hmore with hmore | hmore
          · exact Or.inl (by rw [hok]; exact hmore)
          · exact Or.inr ⟨point, _, hok, hstring, hmore⟩
        · rcases tail with _ | ⟨e, _ | ⟨f, _ | ⟨g, _ | ⟨i, _ | ⟨y, ys⟩⟩⟩⟩⟩ <;>
            simp only [List.length_cons, List.length_nil] at hl' <;> try omega
          exact Or.inl (escape_append_two hq more)
      · exact Or.inl (escape_append_alone hq hnext hpair more)

theorem escape_append {opening t : Text} (h : Ended t) (more : Text) :
    escape (opening ++ more) (t ++ more) =
        (escape opening t).mapError (DecodeError.extend more) ∨
      ∃ point width rest, escape opening t = .ok (point, width) ∧
        string opening width t = .error (.malformed .unicodeEscape rest) ∧
        escape (opening ++ more) (t ++ more) =
          .error (.malformed .unicodeEscape (rest ++ more)) := by
  obtain ⟨letter, t, rfl⟩ := List.exists_cons_of_ne_nil (ended_ne_nil h)
  by_cases hu : letter = 'u'
  · subst hu
    rcases escape_append_unicode (ended_tail h (by decide)) more with
      hsame | ⟨point, rest, hodd⟩
    · exact Or.inl hsame
    · exact Or.inr ⟨point, 5, rest, hodd⟩
  · left
    simp only [List.cons_append, escape, if_neg hu]
    cases simpleEscape? letter <;> rfl

theorem push_extend (point : CodePoint) (more : Text) (r : Reading Text) :
    push point (extend more r) = extend more (push point r) := by
  rcases r with e | ⟨t, rest⟩ <;> rfl

/-- In a text that ends with a line feed every string is read or refused for good. -/
theorem string_append {opening t : Text} {skip : Nat} (h : Ended (t.drop skip)) (more : Text) :
    string (opening ++ more) skip (t ++ more) = extend more (string opening skip t) := by
  fun_induction string opening skip t with
  | case1 => simp [Ended] at h
  | case2 skip c t ih => exact ih h
  | case3 t => rfl
  | case4 t point width hesc _ ih =>
    have ht : Ended t := ended_tail h (by decide)
    rw [List.cons_append, string, if_neg (by decide), if_pos rfl]
    rcases escape_append ht more with
      hsame | ⟨point', width', rest, hok, hstring, hmore⟩
    · rw [hesc] at hsame
      simp only [Except.mapError] at hsame
      rw [hsame]
      simp only [ih (escape_read_ended (escape_read hesc) ht), push_extend]
    · rw [hesc] at hok
      cases hok
      rw [hmore, hstring]
      rfl
  | case5 t e hesc _ =>
    rw [List.cons_append, string, if_neg (by decide), if_pos rfl]
    rcases escape_append (ended_tail h (by decide)) more with
      hsame | ⟨point', width', rest, hok, -, -⟩
    · rw [hesc] at hsame
      simp only [Except.mapError] at hsame
      rw [hsame]
      rfl
    · rw [hesc] at hok
      cases hok
  | case6 c t hquote hback hcontrol =>
    rw [List.cons_append, string, if_neg hquote, if_neg hback, if_pos hcontrol]
    rfl
  | case7 c t hquote hback hcontrol ih =>
    have ht : Ended t := ended_tail h (by rintro rfl; exact hcontrol (by decide))
    rw [List.cons_append, string, if_neg hquote, if_neg hback, if_neg hcontrol, ih ht, push_extend]

def Misread (fault : Fault) (rest : Text) : Prop :=
  ∃ c more, rest = c :: more ∧ (fault = .controlCharacter ∨ isSpace c = false)

theorem misread_cons {c : CodePoint} (hc : isSpace c = false) (fault : Fault) (more : Text) :
    Misread fault (c :: more) := ⟨c, more, rfl, Or.inr hc⟩

theorem escape_misread {opening t rest : Text} {fault : Fault} (ho : ∀ f, Misread f opening)
    (h : escape opening t = .error (.malformed fault rest)) : Misread fault rest := by
  cases t with
  | nil =>
    cases h
    exact ho _
  | cons letter body =>
    rw [escape] at h
    by_cases hu : letter = 'u'
    · rw [if_pos hu, hu] at h
      unfold unicodeEscape at h
      repeat' split at h
      · cases h
        exact misread_cons (by decide) _ _
      · cases h
        rename_i hmark _ _
        simp only [Bool.and_eq_true, decide_eq_true_eq] at hmark
        rw [hmark.2]
        exact misread_cons (by decide) _ _
      · cases h
      · cases h
      · cases h
      · cases h
      · cases h
        exact misread_cons (by decide) _ _
    · rw [if_neg hu] at h
      cases hs : simpleEscape? letter with
      | some point => simp [hs] at h
      | none =>
        simp only [hs] at h
        cases h
        exact misread_cons (by decide) _ _

theorem push_error {c : CodePoint} {r : Reading Text} {e : DecodeError}
    (h : push c r = .error e) : r = .error e := by
  rcases r with e' | p
  · cases h
    rfl
  · cases h

/-- The fault of a string lies at its opening quote or inside it. -/
theorem string_misread {opening t rest : Text} {skip : Nat} {fault : Fault}
    (ho : ∀ f, Misread f opening) (h : string opening skip t = .error (.malformed fault rest)) :
    Misread fault rest := by
  fun_induction string opening skip t with
  | case1 =>
    cases h
    exact ho _
  | case2 _ _ _ ih => exact ih h
  | case3 => cases h
  | case4 t point width hesc _ ih => exact ih (push_error h)
  | case5 t e hesc _ =>
    cases h
    exact escape_misread ho hesc
  | case6 c t _ _ _ =>
    cases h
    exact ⟨c, t, rfl, Or.inl rfl⟩
  | case7 c t _ _ _ ih => exact ih (push_error h)

end FileWatch.Json
