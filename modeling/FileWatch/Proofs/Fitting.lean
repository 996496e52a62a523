import FileWatch.Proofs.Wrapping
import Mathlib.Algebra.Order.BigOperators.Group.List
import Mathlib.Algebra.Order.Ring.Nat
import Mathlib.Data.List.DropRight
/-!
What wrapping keeps of a text. Nothing but spaces is added to a text when it is laid out, no line is
wider than its column, and a text of one line that fits its column is left as it is.
-/

namespace FileWatch.Text

/-- A line that is left as it is in a column of `n`. White space at its end stays only where there
are no more code points than columns. -/
structure Fits (n : Nat) (t : Text) : Prop where
  width : t.width ≤ n
  last : n < t.length → ∀ c, t.getLast? = some c → c.isBlank = false

/-! What is added up over a text. -/

section

variable (f : CodePoint → Nat)

def total (t : Text) : Nat := (t.map f).sum

@[simp] theorem total_nil : total f [] = 0 := rfl

@[simp] theorem total_cons (c : CodePoint) (t : Text) : total f (c :: t) = f c + total f t := rfl

@[simp] theorem total_append (s t : Text) : total f (s ++ t) = total f s + total f t := by
  rw [total, List.map_append, List.sum_append]
  rfl

@[simp] theorem total_reverse (t : Text) : total f t.reverse = total f t := by
  induction t with
  | nil => rfl
  | cons c t ih =>
    rw [List.reverse_cons, total_append, ih, total_cons, total_cons, total_nil]
    omega

theorem total_sublist {s t : Text} (h : s.Sublist t) : total f s ≤ total f t := by
  induction h with
  | slnil => exact Nat.le_refl _
  | cons c _ ih =>
    rw [total_cons]
    omega
  | cons_cons c _ ih =>
    rw [total_cons, total_cons]
    omega

def totals (ts : List Text) : Nat := (ts.map (total f)).sum

@[simp] theorem totals_nil : totals f [] = 0 := rfl

@[simp] theorem totals_cons (t : Text) (ts : List Text) :
    totals f (t :: ts) = total f t + totals f ts := rfl

@[simp] theorem totals_append (ss ts : List Text) :
    totals f (ss ++ ts) = totals f ss + totals f ts := by
  rw [totals, List.map_append, List.sum_append]
  rfl

theorem totals_flatMap {g : Text → List Text} (hg : ∀ t, totals f (g t) ≤ total f t)
    (ts : List Text) : totals f (ts.flatMap g) ≤ totals f ts := by
  induction ts with
  | nil => exact Nat.le_refl _
  | cons t ts ih =>
    have ht := hg t
    rw [List.flatMap_cons, totals_append, totals_cons]
    omega

theorem totals_map {g : Text → Text} (hg : ∀ t, total f (g t) ≤ total f t) (ts : List Text) :
    totals f (ts.map g) ≤ totals f ts := by
  induction ts with
  | nil => exact Nat.le_refl _
  | cons t ts ih =>
    have ht := hg t
    rw [List.map_cons, totals_cons, totals_cons]
    omega

theorem total_split (p : CodePoint → Bool) (t : Text) : totals f (split p t) ≤ total f t := by
  induction t with
  | nil => exact Nat.le_refl _
  | cons c t ih =>
    rw [split, total_cons]
    split
    · rw [totals_cons, total_nil]
      omega
    · split
      · rename_i hsplit
        rw [hsplit] at ih
        rw [totals_cons, total_cons, total_nil, totals_nil]
        omega
      · rename_i part others hsplit
        rw [hsplit, totals_cons] at ih
        rw [totals_cons, total_cons]
        omega

theorem total_wordsOf (word t : Text) : totals f (wordsOf word t) ≤ total f word + total f t := by
  induction t generalizing word with
  | nil =>
    rw [wordsOf]
    split
    · exact Nat.zero_le _
    · rw [totals_cons, total_reverse]
      exact Nat.le_refl _
  | cons c t ih =>
    rw [wordsOf, total_cons]
    split
    · have hrest := ih [c]
      rw [totals_cons, total_reverse]
      rw [total_cons, total_nil] at hrest
      omega
    · have hrest := ih (c :: word)
      rw [total_cons] at hrest
      omega

theorem total_chop (width used : Nat) (part t : Text) :
    totals f (chop width used part t) = total f part + total f t := by
  induction t generalizing used part with
  | nil => rw [chop, totals_cons, total_reverse, totals_nil, total_nil]
  | cons c t ih =>
    rw [chop]
    split
    · rw [totals_cons, ih, total_reverse, total_cons, total_cons, total_nil, Nat.add_zero]
    · rw [ih, total_cons, total_cons]
      omega

theorem totals_last (ts : List Text) :
    totals f ts.dropLast + total f (ts.getLast?.getD []) = totals f ts := by
  rcases List.eq_nil_or_concat' ts with rfl | ⟨front, last, rfl⟩
  · rfl
  · rw [List.dropLast_concat, List.getLast?_concat, totals_append, totals_cons]
    rfl

theorem total_layOut (n used : Nat) (line : Text) (words : List Text) :
    totals f (layOut n used line words) ≤ total f line + totals f words := by
  induction words generalizing used line with
  | nil => rw [layOut, totals_cons]
  | cons word words ih =>
    rw [layOut]
    dsimp only
    split
    · have hrest := ih (used + width word) (line ++ word)
      rw [total_append] at hrest
      rw [totals_cons]
      omega
    · generalize hparts : (if n < width (trimEnd CodePoint.isBlank word) then chop n 0 [] word
        else [word]) = parts
      have hword : totals f parts = total f word := by
        rw [← hparts]
        split
        · rw [total_chop, total_nil, Nat.zero_add]
        · rfl
      have hline : totals f (if line.isEmpty then [] else [line]) ≤ total f line := by
        split
        · exact Nat.zero_le _
        · exact Nat.le_refl _
      have hlast := totals_last f parts
      have hrest := ih (width (parts.getLast?.getD [])) (parts.getLast?.getD [])
      rw [totals_append, totals_append, totals_cons]
      omega

variable {f} (hf : f ' ' = 0)

include hf

theorem total_spaces (n : Nat) : total f (List.replicate n (' ' : CodePoint)) = 0 := by
  rw [total, List.map_replicate, hf, List.sum_replicate]
  exact Nat.mul_zero n

theorem total_expandTabs (column : Nat) (t : Text) : total f (expandTabs column t) ≤ total f t := by
  induction t generalizing column with
  | nil => exact Nat.le_refl _
  | cons c t ih =>
    rw [expandTabs, total_cons]
    split
    · have hrest := ih (column + (tabStop - column % tabStop))
      dsimp only
      rw [total_append, total_spaces hf]
      omega
    · have hrest := ih (column + c.width)
      rw [total_cons]
      omega

theorem total_crop (n : Nat) (t : Text) : total f (crop n t) ≤ total f t := by
  induction t generalizing n with
  | nil => exact Nat.le_refl _
  | cons c t ih =>
    rw [crop, total_cons]
    split
    · have hrest := ih (n - c.width)
      rw [total_cons]
      omega
    · split
      · exact Nat.zero_le _
      · rw [total_cons, hf, total_nil]
        exact Nat.zero_le _

theorem total_cutTo (n : Nat) (line : Text) : total f (cutTo n line) ≤ total f line :=
  Nat.le_trans (total_crop hf n _) (total_sublist f (List.take_sublist _ _))

/-- Nothing but spaces is added to a text that is wrapped. -/
theorem total_wrap (n : Nat) (t : Text) : totals f (wrap n t) ≤ total f t := by
  refine Nat.le_trans (totals_flatMap f (fun line => ?_) _) (total_split f _ t)
  refine Nat.le_trans (totals_map f (total_cutTo hf n) _) ?_
  refine Nat.le_trans ?_ (total_expandTabs hf 0 line)
  split
  · exact Nat.le_refl _
  · have hwords := total_wordsOf f [] (expandTabs 0 line)
    have hlaid := total_layOut f n 0 [] (wordsOf [] (expandTabs 0 line))
    rw [total_nil] at hwords hlaid
    omega

end

theorem total_mem {f : CodePoint → Nat} {t : Text} {c : CodePoint} (h : c ∈ t) :
    f c ≤ total f t := by
  induction h with
  | head t => exact Nat.le_add_right _ _
  | tail d _ ih => exact Nat.le_trans ih (Nat.le_add_left _ _)

theorem totals_mem {f : CodePoint → Nat} {ts : List Text} {t : Text} (h : t ∈ ts) :
    total f t ≤ totals f ts := by
  induction h with
  | head ts => exact Nat.le_add_right _ _
  | tail d _ ih => exact Nat.le_trans ih (Nat.le_add_left _ _)

theorem totals_none {f : CodePoint → Nat} {ts : List Text} (h : ∀ t ∈ ts, total f t = 0) :
    totals f ts = 0 := by
  refine List.sum_eq_zero fun n hn => ?_
  obtain ⟨t, ht, rfl⟩ := List.mem_map.mp hn
  exact h t ht

/-- The lines of a text hold nothing but its code points and spaces. -/
theorem wrap_mem {n : Nat} {t line : Text} (h : line ∈ wrap n t) {c : CodePoint} (hc : c ∈ line)
    (hspace : c ≠ ' ') : c ∈ t := by
  by_contra hnot
  let f : CodePoint → Nat := fun d => if d = c then 1 else 0
  have hspaces : f ' ' = 0 := if_neg hspace.symm
  have hself : f c = 1 := if_pos rfl
  have hnone : total f t = 0 := by
    refine List.sum_eq_zero fun n hn => ?_
    obtain ⟨d, hd, rfl⟩ := List.mem_map.mp hn
    refine if_neg ?_
    rintro rfl
    exact hnot hd
  have hadded := total_wrap hspaces n t
  have hline := totals_mem (f := f) h
  have hone := total_mem (f := f) hc
  omega

/-! Widths. -/

theorem width_append (s t : Text) : width (s ++ t) = width s + width t := by
  induction s with
  | nil => exact (Nat.zero_add _).symm
  | cons c s ih =>
    rw [List.cons_append, width_cons, ih, width_cons]
    omega

theorem crop_width (n : Nat) (t : Text) : width (crop n t) ≤ n := by
  induction t generalizing n with
  | nil => exact Nat.zero_le n
  | cons c t ih =>
    rw [crop]
    split
    · have hrest := ih (n - c.width)
      rw [width_cons]
      omega
    · split
      · exact Nat.zero_le n
      · have hspace : width [' '] = 1 := by decide +kernel
        omega

/-- No line is wider than its column. -/
theorem wrap_width {n : Nat} {t line : Text} (h : line ∈ wrap n t) : line.width ≤ n := by
  obtain ⟨part, -, hline⟩ := List.mem_flatMap.mp h
  obtain ⟨laid, -, rfl⟩ := List.mem_map.mp hline
  exact crop_width n _

/-! Texts of one line. -/

theorem split_single {p : CodePoint → Bool} {t : Text} (h : ∀ c ∈ t, p c = false) :
    split p t = [t] := by
  induction t with
  | nil => rfl
  | cons c t ih =>
    rw [List.forall_mem_cons] at h
    rw [split, h.1, ih h.2]
    rfl

theorem expandTabs_untabbed {t : Text} (h : ∀ c ∈ t, c ≠ '\t') (column : Nat) :
    expandTabs column t = t := by
  induction t generalizing column with
  | nil => rfl
  | cons c t ih =>
    rw [List.forall_mem_cons] at h
    rw [expandTabs, if_neg h.1, ih h.2]

/-- The words of a text make it up, unless there are none. -/
theorem wordsOf_flatten (word t : Text) : (wordsOf word t).flatten = word.reverse ++ t ∨
    wordsOf word t = [] ∧ isBlank (word.reverse ++ t) = true := by
  induction t generalizing word with
  | nil =>
    rw [wordsOf, List.append_nil]
    split
    · rename_i hblank
      exact .inr ⟨rfl, by rwa [isBlank, List.all_reverse]⟩
    · exact .inl (by simp)
  | cons c t ih =>
    rw [wordsOf]
    split
    · rename_i hcond
      rw [Bool.and_eq_true, Bool.not_eq_true'] at hcond
      left
      rcases ih [c] with hflat | ⟨-, hblank⟩
      · rw [List.flatten_cons, hflat]
        rfl
      · have hc : (c.isBlank && isBlank t) = true := hblank
        rw [hcond.2] at hc
        cases hc
    · have hword := ih (c :: word)
      rw [List.reverse_cons, List.append_assoc] at hword
      exact hword

theorem layOut_fitting {n used : Nat} {line : Text} {words : List Text}
    (h : used + width words.flatten ≤ n) : layOut n used line words = [line ++ words.flatten] := by
  induction words generalizing used line with
  | nil => rw [layOut, List.flatten_nil, List.append_nil]
  | cons word words ih =>
    have hcore : width (trimEnd CodePoint.isBlank word) ≤ width word := by
      obtain ⟨blank, hblank⟩ := List.rdropWhile_prefix (p := CodePoint.isBlank) (l := word)
      have hwidth := width_append (word.rdropWhile CodePoint.isBlank) blank
      rw [hblank] at hwidth
      exact Nat.le.intro hwidth.symm
    rw [List.flatten_cons, width_append] at h
    rw [layOut]
    dsimp only
    rw [if_pos (by omega), ih (by omega), List.append_assoc, List.flatten_cons]

/-- A text of one line that is no wider than the column stays on one line. -/
theorem wrap_fitting {n : Nat} {t : Text} (hline : ∀ c ∈ t, c ≠ '\n' ∧ c ≠ '\t')
    (hwidth : t.width ≤ n) : wrap n t = [cutTo n t] := by
  have hsplit : split (· = '\n') t = [t] :=
    split_single fun c hc => decide_eq_false (hline c hc).1
  have htabs : expandTabs 0 t = t := expandTabs_untabbed (fun c hc => (hline c hc).2) 0
  have hlaid : (if (wordsOf [] t).isEmpty then [t] else layOut n 0 [] (wordsOf [] t)) = [t] := by
    rcases wordsOf_flatten [] t with hflat | ⟨hnil, -⟩
    · split
      · rfl
      · have hfit : 0 + width (wordsOf [] t).flatten ≤ n := by
          rw [hflat, Nat.zero_add]
          exact hwidth
        rw [layOut_fitting hfit, hflat]
        rfl
    · rw [hnil]
      rfl
  rw [wrap, hsplit, List.flatMap_cons, List.flatMap_nil, List.append_nil]
  dsimp only
  rw [htabs, hlaid]
  rfl

theorem crop_fitting {n : Nat} {t : Text} (h : t.width ≤ n) : crop n t = t := by
  induction t generalizing n with
  | nil => rfl
  | cons c t ih =>
    rw [width_cons] at h
    rw [crop, if_pos (by omega), ih (by omega)]

theorem trailing_none {t : Text} : (t.reverse.takeWhile CodePoint.isBlank).length = 0 ↔
    ∀ c, t.getLast? = some c → c.isBlank = false := by
  rw [List.getLast?_eq_head?_reverse]
  cases t.reverse with
  | nil => simp
  | cons c r => cases hc : c.isBlank <;> simp [hc]

theorem cutTo_fitting {n : Nat} {t : Text} (hwidth : t.width ≤ n) : cutTo n t = t ↔ Fits n t := by
  have htaken (k : Nat) : width (t.take k) ≤ n := by
    have happend := width_append (t.take k) (t.drop k)
    rw [List.take_append_drop] at happend
    omega
  rw [cutTo, crop_fitting (htaken _), List.take_eq_self_iff]
  have hblank := trailing_none (t := t)
  constructor
  · intro h
    exact ⟨hwidth, fun hlong => hblank.mp (by omega)⟩
  · intro h
    by_cases hlong : n < t.length
    · have hnone := hblank.mpr (h.last hlong)
      omega
    · omega

/-- Wrapping leaves a text of one line as it is exactly if that fits. -/
theorem wrap_fits {n : Nat} {t : Text} (hline : ∀ c ∈ t, c ≠ '\n' ∧ c ≠ '\t') :
    wrap n t = [t] ↔ Fits n t := by
  constructor
  · intro h
    have hwidth : t.width ≤ n := wrap_width (by rw [h]; exact List.mem_singleton_self t)
    rw [wrap_fitting hline hwidth] at h
    exact (cutTo_fitting hwidth).mp (List.singleton_inj.mp h)
  · intro h
    rw [wrap_fitting hline h.width, (cutTo_fitting h.width).mpr h]

end FileWatch.Text
