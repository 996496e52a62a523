import FileWatch.Proofs.Json.Grammar
import Mathlib.Data.List.Basic
/-!
What becomes of a reading when more text comes in. A reading of the text in hand is final unless it
failed at the very end of that text; the longer text then gives the same result, with the new text
behind the rest. Tokens could grow into the new text, so the text in hand has to end with a line
feed, which no token holds.
-/

namespace FileWatch.Json

variable {α β : Type}

def Ended (t : Text) : Prop := t.getLast? = some ('\n' : CodePoint)

instance (t : Text) : Decidable (Ended t) := inferInstanceAs (Decidable (_ = _))

theorem ended_ne_nil {t : Text} (h : Ended t) : t ≠ [] := by
  rintro rfl
  simp [Ended] at h

theorem ended_mem {t : Text} (h : Ended t) : ('\n' : CodePoint) ∈ t :=
  List.mem_of_getLast? h

theorem ended_append (s : Text) {t : Text} (h : Ended t) : Ended (s ++ t) := by
  unfold Ended at *
  simp [List.getLast?_append, h]

theorem ended_of_append {s t : Text} (h : Ended (s ++ t)) (ht : t ≠ []) : Ended t := by
  unfold Ended at *
  rwa [List.getLast?_append_of_ne_nil s ht] at h

theorem ended_tail {c : CodePoint} {t : Text} (h : Ended (c :: t)) (hc : c ≠ '\n') : Ended t := by
  apply ended_of_append (s := [c]) h
  rintro rfl
  exact hc (by simpa [Ended] using h)

/-- A text that ends with a token and goes on with something ended cannot be used up. -/
theorem ended_after_token {s t : Text} (hs : Ends s) (h : Ended (s ++ t)) : Ended t := by
  apply ended_of_append h
  rintro rfl
  obtain ⟨init, c, rfl, hc⟩ := hs
  have hlast : c = '\n' := by simpa [Ended] using h
  subst hlast
  exact absurd hc (by decide)

theorem ended_dropWhile {p : CodePoint → Bool} {t : Text} (h : Ended t) (hp : p '\n' = false) :
    Ended (t.dropWhile p) := by
  have split := List.takeWhile_append_dropWhile (p := p) (l := t)
  rw [← split] at h
  apply ended_of_append h
  intro hnil
  have hall := (List.dropWhile_eq_nil_iff.mp hnil) _ (ended_mem (split ▸ h))
  simp [hp] at hall

theorem takeWhile_append_ended {p : CodePoint → Bool} {t : Text} (h : Ended t)
    (hp : p '\n' = false) (c : Text) : (t ++ c).takeWhile p = t.takeWhile p := by
  rw [List.takeWhile_append, if_neg]
  intro hl
  have same := (List.takeWhile_prefix p).eq_of_length hl
  have hall := List.takeWhile_eq_self_iff.mp same _ (ended_mem h)
  simp [hp] at hall

theorem dropWhile_append_ended {p : CodePoint → Bool} {t : Text} (h : Ended t)
    (hp : p '\n' = false) (c : Text) : (t ++ c).dropWhile p = t.dropWhile p ++ c := by
  rw [List.dropWhile_append, if_neg]
  simpa using ended_ne_nil (ended_dropWhile h hp)

/-! White space between tokens. -/

theorem skipSpace_spaces {w : Text} (hw : Spaces w) (t : Text) :
    skipSpace (w ++ t) = skipSpace t := by
  unfold skipSpace
  rw [List.dropWhile_append_of_pos hw]

theorem skipSpace_cons {c : CodePoint} (hc : isSpace c = false) (rest : Text) :
    skipSpace (c :: rest) = c :: rest := by
  simp [skipSpace, hc]

theorem skipSpace_begins {t : Text} (h : Begins t) : skipSpace t = t := by
  obtain ⟨c, rest, rfl, hc⟩ := h
  exact skipSpace_cons (opens_not_space hc) rest

theorem skipSpace_split (t : Text) : ∃ w, Spaces w ∧ t = w ++ skipSpace t :=
  ⟨t.takeWhile isSpace, fun _ hc => List.mem_takeWhile_imp hc,
    (List.takeWhile_append_dropWhile (p := isSpace) (l := t)).symm⟩

theorem skipSpace_length (t : Text) : (skipSpace t).length ≤ t.length :=
  (List.dropWhile_suffix isSpace).length_le

theorem skipSpace_head {t more : Text} {d : CodePoint} (h : skipSpace t = d :: more) :
    isSpace d = false := by
  unfold skipSpace at h
  have hne : List.dropWhile isSpace t ≠ [] := by simp [h]
  have hn := List.head_dropWhile_not isSpace hne
  simpa only [h, List.head_cons] using hn

theorem skipSpace_append {t more : Text} {d : CodePoint} (h : skipSpace t = d :: more) (c : Text) :
    skipSpace (t ++ c) = d :: (more ++ c) := by
  unfold skipSpace at *
  rw [List.dropWhile_append, h]
  rfl

theorem skipSpace_ended {t more : Text} {d : CodePoint} (ht : Ended t)
    (h : skipSpace t = d :: more) : Ended more := by
  obtain ⟨w, -, hsplit⟩ := skipSpace_split t
  rw [hsplit, h] at ht
  have hd := ended_of_append ht (by simp)
  apply ended_tail hd
  rintro rfl
  exact absurd (skipSpace_head h) (by decide)

/-! Readings in sequence. -/

def andThen (r : Reading α) (k : α → Text → Reading β) : Reading β :=
  match r with
  | .ok (a, rest) => k a rest
  | .error e => .error e

def token (fault : Fault) (t : Text) (k : CodePoint → Text → Reading β) : Reading β :=
  match skipSpace t with
  | [] => .error (.malformed fault [])
  | c :: more => k c more

def DecodeError.extend (c : Text) : DecodeError → DecodeError
  | .malformed fault rest => .malformed fault (rest ++ c)
  | .longInteger digits => .longInteger digits

def extend (c : Text) : Reading α → Reading α
  | .ok (a, rest) => .ok (a, rest ++ c)
  | .error e => .error (e.extend c)

/-- The text ended where the reading had to go on. -/
def Starved (r : Reading α) : Prop := ∃ fault, r = .error (.malformed fault [])

/-- The second reading, of the longer text, is the first one unless that was starved. -/
def Stable (c : Text) (r r' : Reading α) : Prop := Starved r ∨ r' = extend c r

theorem stable_of_eq {c : Text} {r r' : Reading α} (h : r' = extend c r) : Stable c r r' :=
  Or.inr h

theorem andThen_ok {r : Reading α} {k : α → Text → Reading β} {b : β} {rest : Text}
    (h : andThen r k = .ok (b, rest)) : ∃ a more, r = .ok (a, more) ∧ k a more = .ok (b, rest) := by
  cases r with
  | error e => cases h
  | ok p => exact ⟨p.1, p.2, rfl, h⟩

theorem andThen_congr {r : Reading α} {k k' : α → Text → Reading β}
    (h : ∀ a rest, r = .ok (a, rest) → k a rest = k' a rest) : andThen r k = andThen r k' := by
  rcases r with e | ⟨a, rest⟩
  · rfl
  · exact h a rest rfl

theorem andThen_stable {c : Text} {r r' : Reading α} {k k' : α → Text → Reading β}
    (h : Stable c r r')
    (hk : ∀ a rest, r = .ok (a, rest) → Stable c (k a rest) (k' a (rest ++ c))) :
    Stable c (andThen r k) (andThen r' k') := by
  rcases h with ⟨fault, rfl⟩ | rfl
  · exact Or.inl ⟨fault, rfl⟩
  · rcases r with e | ⟨a, rest⟩
    · exact Or.inr rfl
    · exact hk a rest rfl

theorem token_ok {fault : Fault} {t : Text} {k : CodePoint → Text → Reading β} {b : β} {rest : Text}
    (h : token fault t k = .ok (b, rest)) :
    ∃ w d more, Spaces w ∧ t = w ++ d :: more ∧ isSpace d = false ∧ k d more = .ok (b, rest) := by
  obtain ⟨w, hw, hsplit⟩ := skipSpace_split t
  unfold token at h
  cases hs : skipSpace t with
  | nil => simp [hs] at h
  | cons d more =>
    simp only [hs] at h
    exact ⟨w, d, more, hw, by rw [← hs]; exact hsplit, skipSpace_head hs, h⟩

theorem token_congr {fault : Fault} {t : Text} {k k' : CodePoint → Text → Reading β}
    (h : ∀ d more, (d :: more).length ≤ t.length → k d more = k' d more) :
    token fault t k = token fault t k' := by
  unfold token
  cases hs : skipSpace t with
  | nil => rfl
  | cons d more =>
    apply h
    rw [← hs]
    exact skipSpace_length t

theorem token_spaces {w : Text} {d : CodePoint} (fault : Fault) (hw : Spaces w)
    (hd : isSpace d = false) (more : Text) (k : CodePoint → Text → Reading β) :
    token fault (w ++ d :: more) k = k d more := by
  unfold token
  rw [skipSpace_spaces hw, skipSpace_cons hd]

theorem token_stable {fault : Fault} {t c : Text} {k k' : CodePoint → Text → Reading β}
    (ht : Ended t) (hk : ∀ d more, isSpace d = false → Ended more →
      Stable c (k d more) (k' d (more ++ c))) :
    Stable c (token fault t k) (token fault (t ++ c) k') := by
  unfold token
  cases hs : skipSpace t with
  | nil => exact Or.inl ⟨fault, rfl⟩
  | cons d more =>
    rw [skipSpace_append hs]
    exact hk d more (skipSpace_head hs) (skipSpace_ended ht hs)

end FileWatch.Json
