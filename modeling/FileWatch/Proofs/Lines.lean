import FileWatch.Proofs.Messages
import FileWatch.Stream
/-!
Lines of the stream and the frames that the reader gathers from them. Lines of a stream come apart
where whole lines end, and the reader gathers a frame in the same way whether all lines are there
or come one after the other.
-/

namespace FileWatch.Stream

def WholeLines (b : Bytes) : Prop := b = [] ∨ b.getLast? = some 0x0a

def BlankLines (b : Bytes) : Prop := WholeLines b ∧ ∀ d ∈ b, isBlankByte d = true

theorem lines_flatten (b : Bytes) : (lines b).flatten = b := by
  fun_induction lines b with
  | case1 => rfl
  | case2 rest ih => simp [ih]
  | case3 b rest hb hnil ih => simpa [hnil] using ih
  | case4 b rest hb line others hlines ih =>
    rw [hlines] at ih
    simpa using ih

theorem lines_nil {b : Bytes} (h : lines b = []) : b = [] := by
  rw [← lines_flatten b, h]
  rfl

theorem line_ne_nil {b line : Bytes} (h : line ∈ lines b) : line ≠ [] := by
  induction b generalizing line with
  | nil => cases h
  | cons d rest ih =>
    rw [lines] at h
    split_ifs at h with hd
    · rcases List.mem_cons.mp h with rfl | h
      · simp
      · exact ih h
    · cases hrest : lines rest with
      | nil =>
        rw [hrest] at h
        obtain rfl := List.mem_singleton.mp h
        simp
      | cons first others =>
        simp only [hrest] at h ih
        rcases List.mem_cons.mp h with rfl | h
        · simp
        · exact ih (List.mem_cons_of_mem _ h)

theorem wholeLines_cons {d : UInt8} {b : Bytes} (hb : b ≠ []) :
    WholeLines (d :: b) ↔ WholeLines b := by
  obtain ⟨e, rest, rfl⟩ := List.exists_cons_of_ne_nil hb
  simp [WholeLines, List.getLast?_cons_cons]

theorem wholeLines_append {a b : Bytes} (ha : WholeLines a) (hb : WholeLines b) :
    WholeLines (a ++ b) := by
  rcases hb with rfl | hb
  · rwa [List.append_nil]
  · exact Or.inr (by rw [List.getLast?_append, hb]; rfl)

theorem wholeLines_right {a b : Bytes} (h : WholeLines (a ++ b)) : WholeLines b := by
  by_cases hb : b = []
  · exact Or.inl hb
  · rcases h with h | h
    · exact absurd (List.append_eq_nil_iff.mp h).2 hb
    · rw [List.getLast?_append_of_ne_nil a hb] at h
      exact Or.inr h

/-- The lines of a text that goes on behind whole lines. -/
theorem lines_append {a : Bytes} (h : WholeLines a) (b : Bytes) :
    lines (a ++ b) = lines a ++ lines b := by
  induction a with
  | nil => rfl
  | cons d rest ih =>
    rw [List.cons_append, lines, lines]
    by_cases hd : d = 0x0a
    · have hrest : WholeLines rest := wholeLines_right (a := [d]) h
      rw [if_pos hd, if_pos hd, ih hrest]
      rfl
    · have hne : rest ≠ [] := by
        rintro rfl
        rcases h with h | h
        · cases h
        · exact hd (by simpa using h)
      rw [if_neg hd, if_neg hd, ih ((wholeLines_cons hne).mp h)]
      cases hrest : lines rest with
      | nil => exact absurd (lines_nil hrest) hne
      | cons line others => rfl

/-- Only the last line can lack its line feed. -/
theorem lines_before {b : Bytes} {p q : List Bytes} (h : lines b = p ++ q) (hq : q ≠ []) :
    WholeLines p.flatten := by
  induction b generalizing p with
  | nil =>
    obtain ⟨rfl, -⟩ := List.append_eq_nil_iff.mp h.symm
    exact Or.inl rfl
  | cons d rest ih =>
    cases p with
    | nil => exact Or.inl rfl
    | cons line p =>
      have hlines := h
      rw [lines] at hlines
      by_cases hd : d = 0x0a
      · rw [if_pos hd] at hlines
        obtain ⟨rfl, hrest⟩ := List.cons.inj hlines
        rw [List.flatten_cons, hd]
        exact wholeLines_append (Or.inr rfl) (ih hrest)
      · rw [if_neg hd] at hlines
        cases hrest : lines rest with
        | nil =>
          rw [hrest] at hlines
          obtain ⟨-, hnil⟩ := List.cons.inj hlines
          exact absurd (List.append_eq_nil_iff.mp hnil.symm).2 hq
        | cons first others =>
          simp only [hrest] at hlines
          obtain ⟨rfl, rfl⟩ := List.cons.inj hlines
          have hfirst : first ≠ [] := line_ne_nil (hrest ▸ List.mem_cons_self)
          have hne : (first :: p).flatten ≠ [] := by simp [hfirst]
          exact (wholeLines_cons hne).mpr (ih (p := first :: p) hrest)

theorem lines_whole {b : Bytes} (h : WholeLines b) {p q : List Bytes} (hb : lines b = p ++ q) :
    WholeLines p.flatten := by
  by_cases hq : q = []
  · rw [hq, List.append_nil] at hb
    rw [← hb, lines_flatten]
    exact h
  · exact lines_before hb hq

/-! Gathering a frame. -/

def Gathering.goOn (further : List Bytes) : Gathering → Gathering
  | .complete frame rest => .complete frame (rest ++ further)
  | .exhausted frame => gather frame further
  | .overlong digits rest => .overlong digits (rest ++ further)

theorem gather_append (frame : Bytes) (ls further : List Bytes) :
    gather frame (ls ++ further) = (gather frame ls).goOn further := by
  induction ls generalizing frame with
  | nil => rfl
  | cons line ls ih =>
    rw [List.cons_append, gather, gather]
    by_cases hblank : (frame.isEmpty && line.all isBlankByte) = true
    · rw [if_pos hblank, if_pos hblank, ih]
    · rw [if_neg hblank, if_neg hblank]
      rcases Frame.needsMore (frame ++ line) with digits | more
      · rfl
      · cases more with
        | false => rfl
        | true => exact ih (frame ++ line)

/-- Whether the reader adds a line to the frame; otherwise it passes over it. -/
def Added (frame line : Bytes) : Prop := frame ≠ [] ∨ ∃ d ∈ line, isBlankByte d = false

theorem gather_added {frame line : Bytes} (h : Added frame line) (rest : List Bytes) :
    gather frame (line :: rest) = match Frame.needsMore (frame ++ line) with
      | .error digits => .overlong digits rest
      | .ok true => gather (frame ++ line) rest
      | .ok false => .complete (frame ++ line) rest := by
  have hblank : (frame.isEmpty && line.all isBlankByte) = false := by
    rcases h with h | ⟨d, hd, hplain⟩
    · simp [h]
    · rw [Bool.and_eq_false_iff, List.all_eq_false]
      exact Or.inr ⟨d, hd, by simp [hplain]⟩
  rw [gather, hblank]
  rfl

theorem gather_blank {bs : List Bytes} (h : ∀ line ∈ bs, line.all isBlankByte = true) :
    gather [] bs = .exhausted [] := by
  induction bs with
  | nil => rfl
  | cons line bs ih =>
    have hline := h line (by simp)
    rw [gather, if_pos (by simp [hline])]
    exact ih fun l hl => h l (by simp [hl])

/-- As long as the frame asks for more behind each line, the lines are added to it. -/
theorem gather_more {frame line : Bytes} {ls : List Bytes} (rest : List Bytes)
    (hadded : Added frame line)
    (hmore : ∀ p q, line :: ls = p ++ q → p ≠ [] →
      Frame.needsMore (frame ++ p.flatten) = .ok true) :
    gather frame (line :: ls ++ rest) = gather (frame ++ (line :: ls).flatten) rest := by
  induction ls generalizing frame line with
  | nil =>
    have hneed := hmore [line] [] rfl (by simp)
    rw [List.flatten_singleton] at hneed ⊢
    rw [List.singleton_append, gather_added hadded, hneed]
  | cons next ls ih =>
    have hneed := hmore [line] (next :: ls) rfl (by simp)
    rw [List.flatten_singleton] at hneed
    have hne : frame ++ line ≠ [] := by
      intro hnil
      rw [hnil] at hneed
      cases hneed
    rw [List.cons_append, gather_added hadded, hneed, List.flatten_cons, ← List.append_assoc]
    apply ih (Or.inl hne)
    intro p q hpq hp
    have h := hmore (line :: p) q (by rw [hpq]; rfl) (by simp)
    rwa [List.flatten_cons, ← List.append_assoc] at h

/-- A frame that asks for more behind each of its lines but the last is gathered whole. -/
theorem gather_whole {line : Bytes} {ls : List Bytes} (hadded : Added [] line)
    (hmore : ∀ p q, line :: ls = p ++ q → p ≠ [] → q ≠ [] →
      Frame.needsMore p.flatten = .ok true)
    (hlast : Frame.needsMore (line :: ls).flatten = .ok false) :
    gather [] (line :: ls) = .complete (line :: ls).flatten [] := by
  rcases List.eq_nil_or_concat ls with rfl | ⟨init, last, rfl⟩
  · rw [List.flatten_singleton] at hlast ⊢
    rw [gather_added hadded, List.nil_append, hlast]
  · rw [List.concat_eq_append] at hmore hlast ⊢
    have hinit : ∀ p q, line :: init = p ++ q → p ≠ [] →
        Frame.needsMore ([] ++ p.flatten) = .ok true := by
      intro p q hpq hp
      refine hmore p (q ++ [last]) ?_ hp (by simp)
      rw [← List.cons_append, hpq, List.append_assoc]
    have hne : (line :: init).flatten ≠ [] := by
      intro hnil
      have hneed := hinit (line :: init) [] (by simp) (by simp)
      rw [hnil] at hneed
      cases hneed
    rw [← List.cons_append, List.flatten_append, List.flatten_singleton] at hlast ⊢
    rw [gather_more [last] hadded hinit, List.nil_append, gather_added (Or.inl hne), hlast]

/-- How gathering ends with a frame and the lines left behind it. -/
def Ends (g : Gathering) (frame : Bytes) (rest : List Bytes) : Prop :=
  (g = .complete frame rest ∧ Frame.needsMore frame = .ok false) ∨
    (g = .exhausted frame ∧ rest = [] ∧ Frame.needsMore frame = .ok true) ∨
    ∃ digits, g = .overlong digits rest ∧ Frame.needsMore frame = .error digits

theorem gather_ends {frame line : Bytes} (ls : List Bytes) (hadded : Added frame line) :
    ∃ ms rest, line :: ls = ms ++ rest ∧ ms ≠ [] ∧
      Ends (gather frame (line :: ls)) (frame ++ ms.flatten) rest := by
  induction ls generalizing frame line with
  | nil =>
    refine ⟨[line], [], rfl, by simp, ?_⟩
    rw [gather_added hadded, List.flatten_singleton]
    rcases hneed : Frame.needsMore (frame ++ line) with digits | more
    · exact Or.inr (Or.inr ⟨digits, rfl, hneed⟩)
    · cases more with
      | false => exact Or.inl ⟨rfl, hneed⟩
      | true => exact Or.inr (Or.inl ⟨rfl, rfl, hneed⟩)
  | cons next ls ih =>
    rw [gather_added hadded]
    rcases hneed : Frame.needsMore (frame ++ line) with digits | more
    · refine ⟨[line], next :: ls, rfl, by simp, Or.inr (Or.inr ⟨digits, rfl, ?_⟩)⟩
      rwa [List.flatten_singleton]
    · cases more with
      | false =>
        refine ⟨[line], next :: ls, rfl, by simp, Or.inl ?_⟩
        rw [List.flatten_singleton]
        exact ⟨rfl, hneed⟩
      | true =>
        have hne : frame ++ line ≠ [] := by
          intro hnil
          rw [hnil] at hneed
          cases hneed
        have hnext : Added (frame ++ line) next := Or.inl hne
        obtain ⟨ms, rest, hsplit, -, hends⟩ := ih hnext
        refine ⟨line :: ms, rest, by rw [hsplit]; rfl, by simp, ?_⟩
        rwa [List.flatten_cons, ← List.append_assoc]

/-- The blank lines at the front, and the rest, which does not begin with one. -/
theorem blank_split (ls : List Bytes) :
    ∃ bs rest, ls = bs ++ rest ∧ (∀ line ∈ bs, line.all isBlankByte = true) ∧
      ∀ line more, rest = line :: more → Added [] line := by
  induction ls with
  | nil => exact ⟨[], [], rfl, by simp, by simp⟩
  | cons line ls ih =>
    by_cases hblank : line.all isBlankByte = true
    · obtain ⟨bs, rest, rfl, hbs, hrest⟩ := ih
      refine ⟨line :: bs, rest, rfl, ?_, hrest⟩
      intro l hl
      rcases List.mem_cons.mp hl with rfl | hl
      · exact hblank
      · exact hbs l hl
    · refine ⟨[], line :: ls, rfl, by simp, ?_⟩
      intro l more h
      obtain ⟨rfl, -⟩ := List.cons.inj h
      rw [Bool.not_eq_true, List.all_eq_false] at hblank
      obtain ⟨d, hd, hplain⟩ := hblank
      exact Or.inr ⟨d, hd, by simpa using hplain⟩

/-- The lines that are gone through: blank ones alone, or first those passed over and then those of
the frame. -/
theorem gather_split (ls : List Bytes) :
    gather [] ls = .exhausted [] ∨
      ∃ bs ms rest, ls = bs ++ (ms ++ rest) ∧ (∀ line ∈ bs, line.all isBlankByte = true) ∧
        ms ≠ [] ∧ Ends (gather [] ls) ms.flatten rest := by
  obtain ⟨bs, tail, rfl, hbs, htail⟩ := blank_split ls
  rw [gather_append, gather_blank hbs]
  cases tail with
  | nil => exact Or.inl rfl
  | cons line ls =>
    obtain ⟨ms, rest, hsplit, hms, hends⟩ := gather_ends ls (htail line ls rfl)
    exact Or.inr ⟨bs, ms, rest, by rw [hsplit], hbs, hms, hends⟩

/-- A blank line cannot be the beginning of a frame, so blank lines before one are whole. -/
theorem blankLines_before {b : Bytes} {bs ms : List Bytes} (h : lines b = bs ++ ms)
    (hms : ms ≠ []) (hblank : ∀ line ∈ bs, line.all isBlankByte = true) :
    BlankLines bs.flatten := by
  refine ⟨lines_before h hms, ?_⟩
  intro d hd
  obtain ⟨line, hline, hmem⟩ := List.mem_flatten.mp hd
  exact List.all_eq_true.mp (hblank line hline) d hmem

/-- Blank lines are passed over one by one. -/
theorem gather_blankLines {b : Bytes} (h : BlankLines b) : gather [] (lines b) = .exhausted [] := by
  apply gather_blank
  intro line hline
  rw [List.all_eq_true]
  intro d hd
  apply h.2
  rw [← lines_flatten b]
  exact List.mem_flatten_of_mem hline hd

end FileWatch.Stream
