import FileWatch.Text.Wrap
/-!
Tables in a frame of box-drawing characters. A column is as wide as its widest cell, with a space
on both sides; the heading stands between heavy lines.
-/

namespace FileWatch

inductive Alignment where
  | left
  | right
  deriving DecidableEq, Repr

structure Column where
  heading : Text
  alignment : Alignment := .left
  deriving DecidableEq, Repr

/-- Headings over rows of cells, each row with one cell for each column. -/
structure Table where
  columns : List Column
  rows : List (List Text)
  deriving DecidableEq, Repr

namespace Table

/-- The code points that end a line of a cell when its width is measured. -/
def endsLine (c : CodePoint) : Bool :=
  c = '\n' || (0x1c ≤ c.val && c.val ≤ 0x1e) || c.val = 0x85 || c.val = 0x2028 || c.val = 0x2029

def cellWidth (t : Text) : Nat := (t.split endsLine).foldl (fun w line => max w line.width) 0

def widths (t : Table) : List Nat :=
  t.rows.foldl (fun ws row => List.zipWith (fun w cell => max w (cellWidth cell)) ws row)
    (t.columns.map fun c => cellWidth c.heading)

def pad (alignment : Alignment) (width : Nat) (line : Text) : Text :=
  match alignment with
  | .left => line ++ List.replicate (width - line.width) (' ' : CodePoint)
  | .right =>
    let line := Text.trimEnd CodePoint.isBlank line
    List.replicate (width - line.width) (' ' : CodePoint) ++ line

structure Strokes where
  left : Text
  between : Text
  right : Text

def heavyStrokes : Strokes := ⟨"┃", "┃", "┃"⟩

def lightStrokes : Strokes := ⟨"│", "│", "│"⟩

def line (s : Strokes) (parts : List Text) : Text :=
  s.left ++ Text.join s.between parts ++ s.right ++ "\n"

def rule (s : Strokes) (stroke : CodePoint) (widths : List Nat) : Text :=
  line s (widths.map fun w => List.replicate (w + 2) stroke)

/-- The lines of a row. It is as high as its highest cell, and the others are blank below. -/
def row (s : Strokes) (columns : List Column) (widths : List Nat) (cells : List Text) : Text :=
  let blocks := List.zipWith (fun (c, w) cell => (w, (Text.wrap w cell).map (pad c.alignment w)))
    (columns.zip widths) cells
  let height := blocks.foldl (fun h (_, lines) => max h lines.length) 0
  (List.range height).flatMap fun k =>
    line s (blocks.map fun (w, lines) =>
      (" " : Text) ++ lines[k]?.getD (List.replicate w ' ') ++ " ")

def render (t : Table) : Text :=
  let ws := t.widths
  rule ⟨"┏", "┳", "┓"⟩ '━' ws ++ row heavyStrokes t.columns ws (t.columns.map Column.heading) ++
    rule ⟨"┡", "╇", "┩"⟩ '━' ws ++ t.rows.flatMap (row lightStrokes t.columns ws) ++
    rule ⟨"└", "┴", "┘"⟩ '─' ws

end Table

end FileWatch
