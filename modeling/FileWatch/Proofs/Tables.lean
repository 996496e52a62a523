import FileWatch.Proofs.Literal
import FileWatch.Report.Table
/-!
Tables whose rows take one line each. A column is as wide as each of its cells, so a cell that has
no line ends in it stands in its row as it is, filled up with spaces; and whatever is counted in a
table, but for its frame, no more of it is there than in the cells.
-/

namespace FileWatch.Table

open Text (Fits total totals)

/-- A cell that takes one line and keeps the white space at its end. -/
structure Unbroken (t : Text) : Prop where
  lines : ∀ c ∈ t, endsLine c = false
  last : t.width < t.length → ∀ c, t.getLast? = some c → c.isBlank = false

def breadth (t : Table) : Nat := (t.widths.map (· + 3)).sum + 1

def plainRow (columns : List Column) (widths : List Nat) (cells : List Text) : Text :=
  line lightStrokes (List.zipWith
    (fun (c, w) cell => (" " : Text) ++ pad c.alignment w cell ++ " ") (columns.zip widths) cells)

def head (columns : List Column) (widths : List Nat) : Text :=
  rule ⟨"┏", "┳", "┓"⟩ '━' widths ++ row heavyStrokes columns widths (columns.map Column.heading) ++
    rule ⟨"┡", "╇", "┩"⟩ '━' widths

def foot (widths : List Nat) : Text := rule ⟨"└", "┴", "┘"⟩ '─' widths

/-- A table each of whose rows takes one line. -/
def plain (t : Table) : Text :=
  head t.columns t.widths ++ t.rows.flatMap (plainRow t.columns t.widths) ++ foot t.widths

theorem render_eq (t : Table) : t.render = head t.columns t.widths ++
    t.rows.flatMap (row lightStrokes t.columns t.widths) ++ foot t.widths := rfl

/-! Widths. -/

def widen (widths : List Nat) (cells : List Text) : List Nat :=
  List.zipWith (fun w cell => max w (cellWidth cell)) widths cells

def Covers (widths : List Nat) (cells : List Text) : Prop :=
  List.Forall₂ (fun w cell => cellWidth cell ≤ w) widths cells

theorem widen_length {widths : List Nat} {cells : List Text}
    (hlength : cells.length = widths.length) : (widen widths cells).length = widths.length := by
  rw [widen, List.length_zipWith, hlength, Nat.min_self]

theorem widen_covers {widths : List Nat} {cells : List Text}
    (hlength : cells.length = widths.length) : Covers (widen widths cells) cells := by
  induction cells generalizing widths with
  | nil =>
    cases List.length_eq_zero_iff.mp hlength.symm
    exact .nil
  | cons cell cells ih =>
    cases widths with
    | nil => cases hlength
    | cons w widths => exact .cons (Nat.le_max_right w _) (ih (Nat.succ.inj hlength))

theorem covers_widen {widths : List Nat} {cells others : List Text} (h : Covers widths cells)
    (hlength : others.length = widths.length) : Covers (widen widths others) cells := by
  induction h generalizing others with
  | nil =>
    cases List.length_eq_zero_iff.mp hlength
    exact .nil
  | cons hw _ ih =>
    cases others with
    | nil => cases hlength
    | cons other others =>
      exact .cons (Nat.le_trans hw (Nat.le_max_left _ _)) (ih (Nat.succ.inj hlength))

theorem covers_widen_all {widths : List Nat} {cells : List Text} (h : Covers widths cells)
    {rows : List (List Text)} (hrows : ∀ others ∈ rows, others.length = widths.length) :
    Covers (rows.foldl widen widths) cells := by
  induction rows generalizing widths with
  | nil => exact h
  | cons others rows ih =>
    rw [List.forall_mem_cons] at hrows
    refine ih (covers_widen h hrows.1) fun row hrow => ?_
    rw [widen_length hrows.1]
    exact hrows.2 row hrow

/-- Columns are as wide as the cells of each row. -/
theorem widths_cover {t : Table} (h : ∀ cells ∈ t.rows, cells.length = t.columns.length)
    {cells : List Text} (hcells : cells ∈ t.rows) : Covers t.widths cells := by
  have hall (widths : List Nat) (rows : List (List Text)) (hcells : cells ∈ rows)
      (hrows : ∀ others ∈ rows, others.length = widths.length) :
      Covers (rows.foldl widen widths) cells := by
    induction hcells generalizing widths with
    | head rows =>
      rw [List.forall_mem_cons] at hrows
      refine covers_widen_all (widen_covers hrows.1) fun row hrow => ?_
      rw [widen_length hrows.1]
      exact hrows.2 row hrow
    | tail others _ ih =>
      rw [List.forall_mem_cons] at hrows
      refine ih (widen widths others) fun row hrow => ?_
      rw [widen_length hrows.1]
      exact hrows.2 row hrow
  refine hall _ t.rows hcells fun others hothers => ?_
  rw [List.length_map]
  exact h others hothers

theorem cellWidth_unbroken {t : Text} (h : Unbroken t) : cellWidth t = t.width := by
  rw [cellWidth, Text.split_single h.lines]
  exact Nat.zero_max _

theorem fits_unbroken {t : Text} (h : Unbroken t) {w : Nat} (hw : cellWidth t ≤ w) : Fits w t := by
  rw [cellWidth_unbroken h] at hw
  exact ⟨hw, fun hlong => h.last (Nat.lt_of_le_of_lt hw hlong)⟩

/-! Rows of one line. -/

theorem blocks_single {widths : List Nat} {cells : List Text}
    (h : List.Forall₂ (fun w cell => Text.wrap w cell = [cell]) widths cells)
    (columns : List Column) :
    List.zipWith (fun (c, w) cell => (w, (Text.wrap w cell).map (pad c.alignment w)))
        (columns.zip widths) cells =
      (List.zipWith (fun (c, w) cell => (w, pad c.alignment w cell))
        (columns.zip widths) cells).map fun (w, l) => (w, [l]) := by
  induction h generalizing columns with
  | nil => simp
  | cons hwrap _ ih =>
    cases columns with
    | nil => rfl
    | cons c columns =>
      rw [List.zip_cons_cons, List.zipWith_cons_cons, List.zipWith_cons_cons, List.map_cons, ih]
      dsimp only
      rw [hwrap]
      rfl

theorem single_height {blocks : List (Nat × Text)} (h : blocks ≠ []) :
    (blocks.map fun (w, l) => (w, [l])).foldl (fun h (_, lines) => max h lines.length) 0 = 1 := by
  have hone (blocks : List (Nat × Text)) :
      (blocks.map fun (w, l) => (w, [l])).foldl (fun h (_, lines) => max h lines.length) 1 = 1 := by
    induction blocks with
    | nil => rfl
    | cons block blocks ih => exact ih
  cases blocks with
  | nil => exact absurd rfl h
  | cons block blocks => exact hone blocks

/-- A row whose cells are left as they are takes one line. -/
theorem row_plain {c : Column} {columns : List Column} {w : Nat} {widths : List Nat} {cell : Text}
    {cells : List Text}
    (h : List.Forall₂ (fun w cell => Text.wrap w cell = [cell]) (w :: widths) (cell :: cells)) :
    row lightStrokes (c :: columns) (w :: widths) (cell :: cells) =
      plainRow (c :: columns) (w :: widths) (cell :: cells) := by
  unfold row plainRow
  dsimp only
  rw [blocks_single h, single_height (by simp), List.range_one, List.flatMap_singleton,
    List.map_map, List.map_zipWith]
  rfl

theorem covers_wrap {widths : List Nat} {cells : List Text} (h : Covers widths cells)
    (hcells : ∀ cell ∈ cells, Unbroken cell ∧ ('\t' : CodePoint) ∉ cell) :
    List.Forall₂ (fun w cell => Text.wrap w cell = [cell]) widths cells := by
  induction h with
  | nil => exact .nil
  | @cons w cell _ _ hw _ ih =>
    rw [List.forall_mem_cons] at hcells
    obtain ⟨⟨hunbroken, htab⟩, hrest⟩ := hcells
    have hline : ∀ c ∈ cell, c ≠ '\n' ∧ c ≠ '\t' := by
      refine fun c hc => ⟨?_, fun heq => htab (heq ▸ hc)⟩
      rintro rfl
      exact absurd (hunbroken.lines _ hc) (by decide)
    exact .cons ((Text.wrap_fits hline).mpr (fits_unbroken hunbroken hw)) (ih hrest)

/-- Each row of a table takes one line if its cells do. -/
theorem render_plain {t : Table} (hcolumns : t.columns ≠ [])
    (hrows : ∀ cells ∈ t.rows, cells.length = t.columns.length)
    (hcells : ∀ cells ∈ t.rows, ∀ cell ∈ cells, Unbroken cell ∧ ('\t' : CodePoint) ∉ cell) :
    t.render = t.plain := by
  have hrow : ∀ cells ∈ t.rows,
      row lightStrokes t.columns t.widths cells = plainRow t.columns t.widths cells := by
    intro cells hmem
    have hwrap := covers_wrap (widths_cover hrows hmem) (hcells cells hmem)
    have hlength := hrows cells hmem
    cases hcs : t.columns with
    | nil => exact absurd hcs hcolumns
    | cons c columns =>
      rw [hcs] at hlength
      generalize t.widths = widths at hwrap ⊢
      cases hwrap with
      | nil => cases hlength
      | cons hcell hrest => exact row_plain (.cons hcell hrest)
  rw [render_eq, plain, List.flatMap_congr hrow]

/-! What is counted in a table. -/

def drawn : Text := " \n┏┳┓┡╇┩┃━│─└┴┘"

def Undrawn (f : CodePoint → Nat) : Prop := ∀ c ∈ drawn, f c = 0

structure Strokes.Uncounted (f : CodePoint → Nat) (s : Strokes) : Prop where
  left : total f s.left = 0
  between : total f s.between = 0
  right : total f s.right = 0

variable {f : CodePoint → Nat}

theorem total_join {separator : Text} (h : total f separator = 0) (ts : List Text) :
    total f (Text.join separator ts) = totals f ts := by
  induction ts with
  | nil => rfl
  | cons t ts ih =>
    cases ts with
    | nil => exact (Nat.add_zero _).symm
    | cons u ts =>
      have hjoin : Text.join separator (t :: u :: ts) =
          t ++ separator ++ Text.join separator (u :: ts) := rfl
      rw [hjoin, Text.total_append, Text.total_append, h, ih]
      rfl

theorem total_flatMap {α : Type} (as : List α) (g : α → Text) :
    total f (as.flatMap g) = (as.map fun a => total f (g a)).sum := by
  induction as with
  | nil => rfl
  | cons a as ih => rw [List.flatMap_cons, Text.total_append, ih, List.map_cons, List.sum_cons]

/-- However high a row is, each line of a cell stands in it once. -/
theorem total_cell (height : Nat) {blank : Text} (h : total f blank = 0) (lines : List Text) :
    ((List.range height).map fun k => total f (lines[k]?.getD blank)).sum ≤ totals f lines := by
  induction height generalizing lines with
  | zero => exact Nat.zero_le _
  | succ height ih =>
    rw [List.range_succ_eq_map, List.map_cons, List.sum_cons, List.map_map]
    cases lines with
    | nil =>
      simp [h, Function.comp_def]
    | cons l lines => exact Nat.add_le_add (Nat.le_refl _) (ih lines)

variable (hf : Undrawn f)

include hf

theorem total_drawn {t : Text} (h : t.all (drawn.contains ·) = true) : total f t = 0 := by
  refine List.sum_eq_zero fun n hn => ?_
  obtain ⟨c, hc, rfl⟩ := List.mem_map.mp hn
  exact hf c (List.contains_iff_mem.mp (List.all_eq_true.mp h c hc))

theorem strokes_uncounted {s : Strokes}
    (h : (s.left ++ s.between ++ s.right).all (drawn.contains ·) = true) : s.Uncounted f := by
  rw [List.all_append, List.all_append, Bool.and_eq_true, Bool.and_eq_true] at h
  exact ⟨total_drawn hf h.1.1, total_drawn hf h.1.2, total_drawn hf h.2⟩

theorem space_uncounted : f ' ' = 0 := hf ' ' (by decide)

theorem total_line {s : Strokes} (h : s.Uncounted f) (parts : List Text) :
    total f (line s parts) = totals f parts := by
  have hnewline : total f ("\n" : Text) = 0 := total_drawn hf rfl
  rw [line, Text.total_append, Text.total_append, Text.total_append, total_join h.between,
    h.left, h.right, hnewline]
  omega

theorem total_rule {s : Strokes} (h : s.Uncounted f) {stroke : CodePoint} (hstroke : f stroke = 0)
    (widths : List Nat) : total f (rule s stroke widths) = 0 := by
  rw [rule, total_line hf h]
  induction widths with
  | nil => rfl
  | cons w widths ih =>
    rw [List.map_cons, Text.totals_cons, ih, total, List.map_replicate, hstroke,
      List.sum_replicate]
    rfl

theorem total_pad (a : Alignment) (w : Nat) (t : Text) : total f (pad a w t) ≤ total f t := by
  have hspaces := Text.total_spaces (space_uncounted hf)
  cases a with
  | left =>
    rw [pad, Text.total_append, hspaces]
    exact Nat.le_refl _
  | right =>
    dsimp only [pad]
    rw [Text.total_append, hspaces, Nat.zero_add]
    exact Text.total_sublist f (List.rdropWhile_prefix CodePoint.isBlank t).sublist

theorem total_block {s : Strokes} (h : s.Uncounted f) (height : Nat)
    (blocks : List (Nat × List Text)) :
    total f ((List.range height).flatMap fun k => line s (blocks.map fun (w, lines) =>
      (" " : Text) ++ lines[k]?.getD (List.replicate w ' ') ++ " ")) ≤
      (blocks.map fun (_, lines) => totals f lines).sum := by
  have hspace : total f (" " : Text) = 0 := total_drawn hf rfl
  rw [total_flatMap]
  simp only [total_line hf h]
  induction blocks with
  | nil => simp
  | cons block blocks ih =>
    obtain ⟨w, lines⟩ := block
    have hcell := total_cell height (Text.total_spaces (space_uncounted hf) w) lines
    simp only [List.map_cons, Text.totals_cons, List.sum_map_add, List.sum_cons]
    refine Nat.add_le_add (Nat.le_trans (Nat.le_of_eq ?_) hcell) ih
    refine congrArg List.sum (List.map_congr_left fun k _ => ?_)
    rw [Text.total_append, Text.total_append, hspace, Nat.zero_add, Nat.add_zero]

/-- No more is counted in a row than in its cells. -/
theorem total_row {s : Strokes} (h : s.Uncounted f) (columns : List Column) (widths : List Nat)
    (cells : List Text) : total f (row s columns widths cells) ≤ totals f cells := by
  refine Nat.le_trans (total_block hf h _ _) ?_
  have hcell (c : Column) (w : Nat) (cell : Text) :
      totals f ((Text.wrap w cell).map (pad c.alignment w)) ≤ total f cell :=
    Nat.le_trans (Text.totals_map f (total_pad hf c.alignment w) _)
      (Text.total_wrap (space_uncounted hf) w cell)
  generalize columns.zip widths = slots
  induction slots generalizing cells with
  | nil => simp
  | cons slot slots ih =>
    cases cells with
    | nil => simp
    | cons cell cells =>
      rw [List.zipWith_cons_cons, List.map_cons, List.sum_cons, Text.totals_cons]
      exact Nat.add_le_add (hcell slot.1 slot.2 cell) (ih cells)

theorem total_head {columns : List Column} (h : totals f (columns.map Column.heading) = 0)
    (widths : List Nat) : total f (head columns widths) = 0 := by
  have hheavy : heavyStrokes.Uncounted f := strokes_uncounted hf rfl
  have hstroke : f '━' = 0 := hf '━' (by decide)
  have hrow := total_row hf hheavy columns widths (columns.map Column.heading)
  rw [head, Text.total_append, Text.total_append, total_rule hf (strokes_uncounted hf rfl) hstroke,
    total_rule hf (strokes_uncounted hf rfl) hstroke]
  omega

theorem total_foot (widths : List Nat) : total f (foot widths) = 0 :=
  total_rule hf (strokes_uncounted hf rfl) (hf '─' (by decide)) widths

/-- No more is counted in a table than in its cells. -/
theorem total_render {t : Table} (h : totals f (t.columns.map Column.heading) = 0) :
    total f t.render ≤ (t.rows.map (totals f)).sum := by
  rw [render_eq, Text.total_append, Text.total_append, total_head hf h, total_foot hf,
    total_flatMap, Nat.zero_add, Nat.add_zero]
  exact List.sum_le_sum fun cells _ => total_row hf (strokes_uncounted hf rfl) _ _ cells

theorem total_plainRow {c : Column} (hleft : c.alignment = .left) {columns : List Column}
    {widths : List Nat} {cells : List Text} (h : Covers widths cells) :
    total f (cells.headD []) ≤ total f (plainRow (c :: columns) widths cells) := by
  have hspace : total f (" " : Text) = 0 := total_drawn hf rfl
  cases h with
  | nil => exact Nat.zero_le _
  | @cons w cell widths cells _ _ =>
    have hcell : total f ((" " : Text) ++ pad c.alignment w cell ++ " ") = total f cell := by
      rw [hleft, pad, Text.total_append, Text.total_append, Text.total_append,
        Text.total_spaces (space_uncounted hf), hspace]
      omega
    rw [plainRow, total_line hf (strokes_uncounted hf rfl), List.zip_cons_cons,
      List.zipWith_cons_cons, Text.totals_cons]
    exact Nat.le_trans (Nat.le_of_eq hcell.symm) (Nat.le_add_right _ _)

/-- The cells of the first column are counted in a plain table. -/
theorem total_plain {t : Table} {c : Column} {columns : List Column}
    (hcolumns : t.columns = c :: columns) (hleft : c.alignment = .left)
    (h : ∀ cells ∈ t.rows, Covers t.widths cells) :
    (t.rows.map fun cells => total f (cells.headD [])).sum ≤ total f t.plain := by
  rw [plain, Text.total_append, Text.total_append, total_flatMap, hcolumns]
  refine Nat.le_trans (List.sum_le_sum fun cells hcells => ?_)
    (Nat.le_trans (Nat.le_add_left _ _) (Nat.le_add_right _ _))
  exact total_plainRow hf hleft (h cells hcells)

end FileWatch.Table
