import FileWatch.Text.Wrap
import Mathlib.Data.List.Basic
/-!
Wrapped text. It has at least one line. A word at the front of a text that fits into a line stays
whole at the front of the first line, whatever comes behind it.
-/

namespace FileWatch.Text

def Solid (s : Text) : Prop := ∀ c ∈ s, c.isBlank = false

theorem solid_cons {c : CodePoint} {s : Text} : Solid (c :: s) ↔ c.isBlank = false ∧ Solid s :=
  List.forall_mem_cons

theorem isBlank_cons (c : CodePoint) (s : Text) : isBlank (c :: s) = (c.isBlank && isBlank s) :=
  List.all_cons

theorem width_cons (c : CodePoint) (s : Text) : width (c :: s) = c.width + width s := by
  have hsum (t : Text) : width t = (t.map CodePoint.width).sum :=
    List.sum_eq_foldl.symm
  rw [hsum, hsum, List.map_cons, List.sum_cons]

/-! The first part. -/

theorem split_front {p : CodePoint → Bool} {s : Text} (hs : ∀ c ∈ s, p c = false) (t : Text) :
    ∃ part others, split p (s ++ t) = (s ++ part) :: others := by
  induction s with
  | nil =>
    cases t with
    | nil => exact ⟨[], [], rfl⟩
    | cons c t =>
      rw [List.nil_append, split]
      split
      · exact ⟨[], _, rfl⟩
      · split
        · exact ⟨[c], [], rfl⟩
        · exact ⟨_, _, rfl⟩
  | cons c s ih =>
    rw [List.forall_mem_cons] at hs
    obtain ⟨part, others, hsplit⟩ := ih hs.2
    refine ⟨part, others, ?_⟩
    rw [List.cons_append, split, hs.1, hsplit]
    rfl

theorem expandTabs_front {s : Text} (hs : Solid s) (column : Nat) (t : Text) :
    ∃ t', expandTabs column (s ++ t) = s ++ t' := by
  induction s generalizing column with
  | nil => exact ⟨_, rfl⟩
  | cons c s ih =>
    rw [solid_cons] at hs
    obtain ⟨t', ht⟩ := ih hs.2 (column + c.width)
    have htab : c ≠ '\t' := by
      rintro rfl
      exact absurd hs.1 (by decide)
    refine ⟨t', ?_⟩
    rw [List.cons_append, expandTabs, if_neg htab, ht]
    rfl

/-! The first word. -/

/-- What has been read of a word stays at its front. -/
theorem wordsOf_begun {word : Text} (h : isBlank word = false) (t : Text) :
    ∃ w ws, wordsOf word t = (word.reverse ++ w) :: ws := by
  induction t generalizing word with
  | nil =>
    refine ⟨[], [], ?_⟩
    rw [wordsOf, h, List.append_nil]
    rfl
  | cons c t ih =>
    rw [wordsOf]
    split
    · exact ⟨[], _, by rw [List.append_nil]⟩
    · have hword : isBlank (c :: word) = false := by rw [isBlank_cons, h, Bool.and_false]
      obtain ⟨w, ws, hw⟩ := ih hword
      refine ⟨c :: w, ws, ?_⟩
      rw [hw, List.reverse_cons, List.append_assoc]
      rfl

theorem wordsOf_solid {s word : Text} (hs : Solid s) (hword : Solid word) (t : Text) :
    wordsOf word (s ++ t) = wordsOf (s.reverse ++ word) t := by
  induction s generalizing word with
  | nil => rfl
  | cons c s ih =>
    rw [solid_cons] at hs
    have hhead : (word.head?.map CodePoint.isBlank).getD false = false := by
      cases word with
      | nil => rfl
      | cons d word => exact (solid_cons.mp hword).1
    rw [List.cons_append, wordsOf, hhead, Bool.and_false, Bool.false_and, if_neg (by decide),
      ih hs.2 (solid_cons.mpr ⟨hs.1, hword⟩), List.reverse_cons, List.append_assoc]
    rfl

theorem wordsOf_front {s : Text} (hs : Solid s) (hne : s ≠ []) (t : Text) :
    ∃ w ws, wordsOf [] (s ++ t) = (s ++ w) :: ws := by
  have hblank : isBlank s.reverse = false := by
    cases s with
    | nil => exact absurd rfl hne
    | cons c s =>
      rw [isBlank, List.all_reverse, List.all_cons, (solid_cons.mp hs).1, Bool.false_and]
  obtain ⟨w, ws, hw⟩ := wordsOf_begun hblank t
  refine ⟨w, ws, ?_⟩
  rw [wordsOf_solid hs (by simp [Solid]), List.append_nil, hw, List.reverse_reverse]

/-! The first line. -/

theorem chop_begun (width used : Nat) (part t : Text) :
    ∃ w ws, chop width used part t = (part.reverse ++ w) :: ws := by
  induction t generalizing used part with
  | nil => exact ⟨[], [], by rw [chop, List.append_nil]⟩
  | cons c t ih =>
    rw [chop]
    split
    · exact ⟨[], _, by rw [List.append_nil]⟩
    · obtain ⟨w, ws, hw⟩ := ih (used + c.width) (c :: part)
      refine ⟨c :: w, ws, ?_⟩
      rw [hw, List.reverse_cons, List.append_assoc]
      rfl

theorem chop_front {n : Nat} {s : Text} (used : Nat) (hs : used + width s ≤ n) (part t : Text) :
    ∃ r rs, chop n used part (s ++ t) = (part.reverse ++ s ++ r) :: rs := by
  induction s generalizing used part with
  | nil =>
    rw [List.append_nil]
    exact chop_begun n used part t
  | cons c s ih =>
    rw [width_cons] at hs
    obtain ⟨r, rs, hr⟩ := ih (used + c.width) (by omega) (c :: part)
    refine ⟨r, rs, ?_⟩
    rw [List.cons_append, chop, if_neg (by omega), hr]
    simp

theorem layOut_begun (n used : Nat) {line : Text} (h : line ≠ []) (words : List Text) :
    ∃ r rs, layOut n used line words = (line ++ r) :: rs := by
  induction words generalizing used line with
  | nil => exact ⟨[], [], by rw [layOut, List.append_nil]⟩
  | cons word words ih =>
    rw [layOut]
    dsimp only
    split
    · have hline : line ++ word ≠ [] := by simp [h]
      obtain ⟨r, rs, hr⟩ := ih (used + width word) hline
      exact ⟨word ++ r, rs, by rw [hr, List.append_assoc]⟩
    · rw [if_neg (by simpa using h)]
      exact ⟨[], _, by rw [List.append_nil]; rfl⟩

theorem layOut_front {n : Nat} {s : Text} (hne : s ≠ []) (hs : width s ≤ n) (t : Text)
    (words : List Text) :
    ∃ r rs, layOut n 0 [] ((s ++ t) :: words) = (s ++ r) :: rs := by
  rw [layOut]
  dsimp only
  split
  · have hline : [] ++ (s ++ t) ≠ [] := by simp [hne]
    obtain ⟨r, rs, hr⟩ := layOut_begun n (0 + width (s ++ t)) hline words
    exact ⟨t ++ r, rs, by rw [hr, List.nil_append, List.append_assoc]⟩
  -- The first word is longer than a line, and is chopped.
  · have hstart : 0 + width s ≤ n := by omega
    have hlong : n < width (trimEnd CodePoint.isBlank (s ++ t)) := by omega
    obtain ⟨r, rs, hr⟩ := chop_front 0 hstart [] t
    rw [if_pos hlong, hr]
    cases rs with
    | nil =>
      have hline : s ++ r ≠ [] := by simp [hne]
      obtain ⟨r', rs', hr'⟩ := layOut_begun n (width (s ++ r)) hline words
      refine ⟨r ++ r', rs', ?_⟩
      simpa using hr'
    | cons p ps => exact ⟨r, _, rfl⟩

/-- White space is all that is cut off but for what does not fit. -/
theorem crop_front {n : Nat} {s : Text} (hs : width s ≤ n) (t : Text) :
    ∃ r, crop n (s ++ t) = s ++ r := by
  induction s generalizing n with
  | nil => exact ⟨_, rfl⟩
  | cons c s ih =>
    rw [width_cons] at hs
    have hrest : width s ≤ n - c.width := by omega
    obtain ⟨r, hr⟩ := ih hrest
    refine ⟨r, ?_⟩
    rw [List.cons_append, crop, if_pos (by omega), hr]
    rfl

theorem trailing_blanks {s : Text} (hs : Solid s) (t : Text) :
    ((s ++ t).reverse.takeWhile CodePoint.isBlank).length ≤ t.length := by
  have hfront (l : Text) : ((l ++ s.reverse).takeWhile CodePoint.isBlank).length ≤ l.length := by
    induction l with
    | nil =>
      cases hr : s.reverse with
      | nil => simp
      | cons c r =>
        have hc : c.isBlank = false := hs c (by rw [← List.mem_reverse, hr]; simp)
        simp [hc]
    | cons c l ih =>
      rw [List.cons_append, List.takeWhile_cons]
      split
      · simpa using ih
      · simp
  rw [List.reverse_append]
  simpa using hfront t.reverse

theorem cutTo_front {n : Nat} {s : Text} (hsolid : Solid s) (hs : width s ≤ n) (t : Text) :
    ∃ r, cutTo n (s ++ t) = s ++ r := by
  have hblank := trailing_blanks hsolid t
  rw [cutTo, List.take_append, List.take_of_length_le (by simp only [List.length_append]; omega)]
  exact crop_front hs _

/-- A text that begins with a word has that word at the front of its first line. -/
theorem wrap_front {n : Nat} {s : Text} (hsolid : Solid s) (hne : s ≠ []) (hs : width s ≤ n)
    (t : Text) : ∃ r rs, wrap n (s ++ t) = (s ++ r) :: rs := by
  have hbreak : ∀ c ∈ s, decide (c = ('\n' : CodePoint)) = false := by
    intro c hc
    rw [decide_eq_false_iff_not]
    rintro rfl
    exact absurd (hsolid _ hc) (by decide)
  obtain ⟨part, others, hsplit⟩ := split_front hbreak t
  obtain ⟨line, hline⟩ := expandTabs_front hsolid 0 part
  obtain ⟨w, ws, hwords⟩ := wordsOf_front hsolid hne line
  obtain ⟨r, rs, hlay⟩ := layOut_front hne hs w ws
  obtain ⟨r', hcut⟩ := cutTo_front hsolid hs r
  rw [wrap, hsplit, List.flatMap_cons, hline]
  dsimp only
  rw [hwords, List.isEmpty_cons, if_neg (by decide), hlay, List.map_cons, hcut]
  exact ⟨r', _, rfl⟩

/-! Lines there are. -/

theorem layOut_ne_nil (n used : Nat) (line : Text) (words : List Text) :
    layOut n used line words ≠ [] := by
  induction words generalizing used line with
  | nil => exact List.cons_ne_nil _ _
  | cons word words ih =>
    rw [layOut]
    dsimp only
    split
    · exact ih _ _
    · exact List.append_ne_nil_of_right_ne_nil _ (ih _ _)

theorem wrap_ne_nil (n : Nat) (t : Text) : wrap n t ≠ [] := by
  obtain ⟨part, others, hsplit⟩ := split_front (p := (· = '\n')) (s := []) nofun t
  rw [List.nil_append] at hsplit
  rw [wrap, hsplit, List.flatMap_cons]
  refine List.append_ne_nil_of_left_ne_nil ?_ _
  rw [Ne, List.map_eq_nil_iff]
  split
  · exact List.cons_ne_nil _ _
  · exact layOut_ne_nil n 0 [] _

end FileWatch.Text
