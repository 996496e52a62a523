import FileWatch.Proofs.Tables
import FileWatch.Proofs.Verbatim
/-!
What a person is shown. On every console, roots, messages, the names in a table of files and the
clock below it are shown as they are exactly if they are literal markup and fit, where they hold no
controls and no codes of pictures.
-/

namespace FileWatch.Report

open FileWatch.Json (Encodable encodable_of_all)
open Markup (Literal LiteralBefore Pictureless mark marks)
open Text (Fits total totals totals_none)
open Table (Unbroken)

variable {α β : Type} {c : Console}

/-! Reports that print nothing yet. -/

/-- Nothing is printed, and whatever comes of it satisfies `R`. -/
def Reads (c : Console) (p : Printer α) (R : α → Prop) : Prop :=
  ∀ out a out', (p.run c).run out = .ok a out' ↔ out' = out ∧ R a

theorem reads_pure (c : Console) (a : α) : Reads c (pure a) (fun b => b = a) := by
  intro out b out'
  constructor
  · rintro ⟨⟩
    exact ⟨rfl, rfl⟩
  · rintro ⟨rfl, rfl⟩
    rfl

theorem reads_lift {ε : Type} (c : Console) (error : ε → Error) (r : Except ε α) :
    Reads c (lift error r) (fun a => r = .ok a) := by
  intro out a out'
  cases r with
  | error e => exact iff_of_false nofun nofun
  | ok b =>
    constructor
    · rintro ⟨⟩
      exact ⟨rfl, rfl⟩
    · rintro ⟨rfl, ⟨⟩⟩
      rfl

theorem reads_bind {p : Printer α} {R : α → Prop} (hp : Reads c p R) (f : α → Printer β)
    (out : Text) (b : β) (out' : Text) :
    ((p >>= f).run c).run out = .ok b out' ↔ ∃ a, R a ∧ ((f a).run c).run out = .ok b out' := by
  rw [printer_bind]
  constructor
  · intro h
    cases hrun : (p.run c).run out with
    | error e middle =>
      rw [hrun] at h
      cases h
    | ok a middle =>
      obtain ⟨rfl, ha⟩ := (hp out a middle).mp hrun
      rw [hrun] at h
      exact ⟨a, ha, h⟩
  · rintro ⟨a, ha, h⟩
    rw [(hp out a out).mpr ⟨rfl, ha⟩]
    exact h

theorem reads_mapM {f : α → Printer β} {R : α → β → Prop} (hf : ∀ a, Reads c (f a) (R a))
    (as : List α) : Reads c (as.mapM f) (List.Forall₂ R as) := by
  induction as with
  | nil =>
    intro out bs out'
    rw [List.mapM_nil, List.forall₂_nil_left_iff]
    exact reads_pure c [] out bs out'
  | cons a as ih =>
    intro out bs out'
    rw [List.mapM_cons, reads_bind (hf a), List.forall₂_cons_left_iff]
    constructor
    · rintro ⟨b, hb, h⟩
      obtain ⟨bs, hbs, ⟨⟩⟩ := (reads_bind ih _ _ _ _).mp h
      exact ⟨rfl, b, bs, hb, hbs, rfl⟩
    · rintro ⟨rfl, b, bs, hb, hbs, rfl⟩
      exact ⟨b, hb, (reads_bind ih _ _ _ _).mpr ⟨bs, hbs, rfl⟩⟩

def Displays (c : Console) (cell x : Text) : Prop :=
  ∃ t, Markup.text c cell = .ok t ∧ x = t.filter fun p => !isControl p

theorem reads_shown (c : Console) (cell : Text) : Reads c (shown cell) (Displays c cell) := by
  have hread : Reads c (read : Printer Console) (fun d => d = c) := by
    intro out d out'
    constructor
    · rintro ⟨⟩
      exact ⟨rfl, rfl⟩
    · rintro ⟨rfl, rfl⟩
      rfl
  intro out x out'
  unfold shown
  rw [reads_bind hread]
  simp only [exists_eq_left]
  rw [reads_bind (reads_lift c _ _)]
  constructor
  · rintro ⟨t, ht, ⟨⟩⟩
    exact ⟨rfl, t, ht, rfl⟩
  · rintro ⟨rfl, t, ht, rfl⟩
    exact ⟨t, ht, rfl⟩

/-! Cells. -/

def otherCells (mask : Int) (s : FileRecord) : List Text :=
  let optional (f : Field) (cell : Text) : List Text := if Field.isIn mask f then [cell] else []
  optional .existence (if s.existing then "yes" else "no") ++
    optional .size (Text.ofInt s.size) ++ optional .new (if s.isNew then "yes" else "")

def fileRow (mask : Int) (s : FileRecord) : List Text := s.name :: otherCells mask s

def SizeShort (mask : Int) (s : FileRecord) : Prop :=
  Field.isIn mask .size = true → s.size.natAbs < 10 ^ Numeral.digitLimit

theorem write_ok {n : Int} {t : Text} :
    Numeral.write n = .ok t ↔ t = Text.ofInt n ∧ n.natAbs < 10 ^ Numeral.digitLimit := by
  rw [Numeral.write]
  split
  · rename_i hshort
    constructor
    · rintro ⟨⟩
      exact ⟨rfl, hshort⟩
    · rintro ⟨rfl, -⟩
      rfl
  · rename_i hlong
    exact iff_of_false nofun fun h => hlong h.2

theorem cells_row {mask : Int} {s : FileRecord} {cells : List Text} :
    List.Forall₂ (fun c cell => FileColumn.cell c s = .ok cell) (fileColumns mask) cells ↔
      cells = fileRow mask s ∧ SizeShort mask s := by
  unfold fileColumns fileRow otherCells SizeShort
  dsimp only
  cases Field.isIn mask .existence <;> cases Field.isIn mask .size <;>
    cases Field.isIn mask .new <;>
    simp [List.forall₂_cons_left_iff, write_ok, and_comm]

theorem rows_cells {mask : Int} {files : List FileRecord} {rows : List (List Text)} :
    List.Forall₂ (fun s cells => List.Forall₂ (fun c cell => FileColumn.cell c s = .ok cell)
      (fileColumns mask) cells) files rows ↔
        rows = files.map (fileRow mask) ∧ ∀ s ∈ files, SizeShort mask s := by
  induction files generalizing rows with
  | nil => simp
  | cons s files ih =>
    rw [List.forall₂_cons_left_iff, List.map_cons, List.forall_mem_cons]
    constructor
    · rintro ⟨cells, rows, hcells, hrows, rfl⟩
      obtain ⟨rfl, hsize⟩ := cells_row.mp hcells
      obtain ⟨rfl, hsizes⟩ := ih.mp hrows
      exact ⟨rfl, hsize, hsizes⟩
    · rintro ⟨rfl, hsize, hsizes⟩
      exact ⟨_, _, cells_row.mpr ⟨rfl, hsize⟩, ih.mpr ⟨rfl, hsizes⟩, rfl⟩

def fileTable (r : QueryAnswer) (mask : Int) : Table :=
  ⟨(fileColumns mask).map FileColumn.column, r.files.map (fileRow mask)⟩

theorem fileRow_length (mask : Int) (s : FileRecord) :
    (fileRow mask s).length = (fileColumns mask).length := by
  unfold fileColumns fileRow otherCells
  dsimp only
  cases Field.isIn mask .existence <;> cases Field.isIn mask .size <;>
    cases Field.isIn mask .new <;> rfl

def Wordlike (t : Text) : Prop :=
  ∀ c ∈ t, isPlain c = true ∧ c.isBlank = false ∧ Table.endsLine c = false

theorem wordlike_of_all {t : Text}
    (h : t.all (fun c => isPlain c && !c.isBlank && !Table.endsLine c) = true) : Wordlike t := by
  intro c hc
  simpa [and_assoc] using List.all_eq_true.mp h c hc

theorem wordlike_digits {t : Text} (h : ∀ c ∈ t, c.isAsciiDigit = true) : Wordlike t := by
  intro c hc
  have hdigit := h c hc
  refine ⟨isPlain_digit hdigit, Json.opens_not_blank (Json.digit_opens hdigit), ?_⟩
  have hnewline : c ≠ '\n' := by
    rintro rfl
    exact absurd hdigit (by decide)
  simp only [CodePoint.isAsciiDigit, Bool.and_eq_true, decide_eq_true_eq] at hdigit
  simp [Table.endsLine, hnewline]
  omega

theorem wordlike_ofInt (n : Int) : Wordlike (Text.ofInt n) := by
  have hdigits : Wordlike (Text.ofNat n.natAbs) := wordlike_digits (Json.ofNat_digits _).2
  have hsign : Wordlike "-" := wordlike_of_all rfl
  unfold Text.ofInt
  split
  · exact List.forall_mem_append.mpr ⟨hsign, hdigits⟩
  · exact hdigits

theorem otherCells_wordlike {mask : Int} {s : FileRecord} {cell : Text}
    (h : cell ∈ otherCells mask s) : Wordlike cell := by
  have hoptional {f : Field} {t : Text} (ht : Wordlike t)
      (hmem : cell ∈ if Field.isIn mask f then [t] else []) : Wordlike cell := by
    split at hmem
    · rwa [List.mem_singleton.mp hmem]
    · cases hmem
  have hyes : Wordlike "yes" := wordlike_of_all rfl
  have hno : Wordlike "no" := wordlike_of_all rfl
  have hnew : Wordlike "" := wordlike_of_all rfl
  simp only [otherCells, List.mem_append] at h
  rcases h with (h | h) | h
  · exact hoptional (by split <;> assumption) h
  · exact hoptional (wordlike_ofInt s.size) h
  · exact hoptional (by split <;> assumption) h

theorem wordlike_unbroken {t : Text} (h : Wordlike t) : Unbroken t :=
  ⟨fun c hc => (h c hc).2.2, fun _ c hc => (h c (List.mem_of_getLast? hc)).2.1⟩

theorem wordlike_marks {t : Text} (h : Wordlike t) : marks t = 0 :=
  plain_marks fun c hc => (h c hc).1

theorem wordlike_literal {t : Text} (h : Wordlike t) : Literal t :=
  Markup.literal_of_mem fun hmem => (isPlain_iff.mp (h _ hmem).1).1.1.2 rfl

theorem wordlike_clean {t : Text} (h : Wordlike t) : Clean t :=
  plain_clean fun c hc => (h c hc).1

/-! Headings. -/

theorem headings_wordlike (mask : Int) :
    ∀ heading ∈ ((fileColumns mask).map FileColumn.column).map Column.heading,
      Wordlike heading := by
  have hname : Wordlike "Name" := wordlike_of_all rfl
  have hexists : Wordlike "Exists" := wordlike_of_all rfl
  have hsize : Wordlike "Size" := wordlike_of_all rfl
  have hnew : Wordlike "New" := wordlike_of_all rfl
  unfold fileColumns
  dsimp only
  cases Field.isIn mask .existence <;> cases Field.isIn mask .size <;>
    cases Field.isIn mask .new <;> simp [hname, hexists, hsize, hnew]

theorem headings_unmarked (mask : Int) :
    totals mark (((fileColumns mask).map FileColumn.column).map Column.heading) = 0 :=
  totals_none fun heading hmem => wordlike_marks (headings_wordlike mask heading hmem)

/-! What is shown for cells. -/

theorem wordlike_encodable {t : Text} (h : Wordlike t) : Encodable t :=
  clean_encodable (wordlike_clean h)

theorem ofInt_pictureless (c : Console) (n : Int) : Pictureless c (Text.ofInt n) := by
  refine Markup.pictureless_colonless c fun hmem => ?_
  have hdigits := (Json.ofNat_digits n.natAbs).2
  unfold Text.ofInt at hmem
  split at hmem
  · rcases List.mem_cons.mp hmem with hmem | hmem
    · exact absurd hmem (by decide)
    · exact absurd (hdigits _ hmem) (by decide)
  · exact absurd (hdigits _ hmem) (by decide)

theorem otherCells_pictureless (c : Console) {mask : Int} {s : FileRecord} {cell : Text}
    (h : cell ∈ otherCells mask s) : Pictureless c cell := by
  have hoptional {f : Field} {t : Text} (ht : Pictureless c t)
      (hmem : cell ∈ if Field.isIn mask f then [t] else []) : Pictureless c cell := by
    split at hmem
    · rwa [List.mem_singleton.mp hmem]
    · cases hmem
  have hyes : Pictureless c "yes" := Markup.pictureless_colonless c (by decide)
  have hno : Pictureless c "no" := Markup.pictureless_colonless c (by decide)
  have hnew : Pictureless c "" := Markup.pictureless_colonless c (by decide)
  simp only [otherCells, List.mem_append] at h
  rcases h with (h | h) | h
  · exact hoptional (by split <;> assumption) h
  · exact hoptional (ofInt_pictureless c s.size) h
  · exact hoptional (by split <;> assumption) h

theorem displays_literal {cell : Text} (hpictures : Pictureless c cell) (hliteral : Literal cell)
    (hclean : Clean cell) {x : Text} : Displays c cell x ↔ x = cell := by
  unfold Displays
  rw [Markup.literal_text hpictures hliteral]
  constructor
  · rintro ⟨_, ⟨⟩, rfl⟩
    exact clean_shown hclean
  · rintro rfl
    exact ⟨x, rfl, (clean_shown hclean).symm⟩

theorem displays_marks {cell x : Text} (hpictures : Pictureless c cell) (h : Displays c cell x) :
    marks x ≤ marks cell ∧ (marks cell ≤ marks x → Literal cell) := by
  obtain ⟨t, htext, rfl⟩ := h
  obtain ⟨hmost, hall⟩ := Markup.text_keeps hpictures htext
  have hshown : marks (t.filter fun p => !isControl p) ≤ marks t :=
    Text.total_sublist mark List.filter_sublist
  exact ⟨Nat.le_trans hshown hmost, fun hle => hall (Nat.le_trans hle hshown)⟩

theorem displays_encodable {cell x : Text} (hpictures : Pictureless c cell)
    (hcell : Encodable cell) (h : Displays c cell x) : Encodable x := by
  obtain ⟨t, htext, rfl⟩ := h
  exact fun p hp => text_encodable hpictures hcell htext p (List.mem_of_mem_filter hp)

theorem displays_all {cells xs : List Text}
    (hcells : ∀ cell ∈ cells, Pictureless c cell ∧ Literal cell ∧ Clean cell) :
    List.Forall₂ (Displays c) cells xs ↔ xs = cells := by
  induction cells generalizing xs with
  | nil => exact List.forall₂_nil_left_iff
  | cons cell cells ih =>
    rw [List.forall_mem_cons] at hcells
    obtain ⟨⟨hpictures, hliteral, hclean⟩, hrest⟩ := hcells
    simp [List.forall₂_cons_left_iff, displays_literal hpictures hliteral hclean, ih hrest]

theorem displays_others {mask : Int} {s : FileRecord} {xs : List Text} :
    List.Forall₂ (Displays c) (otherCells mask s) xs ↔ xs = otherCells mask s :=
  displays_all fun _ hcell =>
    ⟨otherCells_pictureless c hcell, wordlike_literal (otherCells_wordlike hcell),
      wordlike_clean (otherCells_wordlike hcell)⟩

theorem otherCells_marks (mask : Int) (s : FileRecord) : totals mark (otherCells mask s) = 0 :=
  totals_none fun _ hcell => wordlike_marks (otherCells_wordlike hcell)

/-- The cells of a row are shown with all its marks only if the name is literal. -/
theorem row_marks {mask : Int} {s : FileRecord} {xs : List Text}
    (hpictures : Pictureless c s.name) (h : List.Forall₂ (Displays c) (fileRow mask s) xs) :
    totals mark xs ≤ marks s.name ∧ (marks s.name ≤ totals mark xs → Literal s.name) := by
  cases h with
  | @cons _ x _ others hname hothers =>
    obtain ⟨hmost, hall⟩ := displays_marks hpictures hname
    have hrow : totals mark (x :: others) = marks x := by
      rw [Text.totals_cons, displays_others.mp hothers, otherCells_marks]
      rfl
    rw [hrow]
    exact ⟨hmost, hall⟩

section

variable {mask : Int} {files : List FileRecord} (hpictures : ∀ s ∈ files, Pictureless c s.name)

include hpictures

/-- The rows of a table are shown with all its marks only if its names are literal. -/
theorem rows_marks {rows : List (List Text)}
    (h : List.Forall₂ (List.Forall₂ (Displays c)) (files.map (fileRow mask)) rows) :
    (rows.map (totals mark)).sum ≤ (files.map fun s => marks s.name).sum ∧
      ((files.map fun s => marks s.name).sum ≤ (rows.map (totals mark)).sum →
        ∀ s ∈ files, Literal s.name) := by
  induction files generalizing rows with
  | nil =>
    cases h
    exact ⟨Nat.le_refl _, fun _ => nofun⟩
  | cons s files ih =>
    rw [List.forall_mem_cons] at hpictures
    obtain _ | ⟨hrow, hrows⟩ := h
    obtain ⟨hmost, hall⟩ := row_marks hpictures.1 hrow
    obtain ⟨hmosts, halls⟩ := ih hpictures.2 hrows
    simp only [List.map_cons, List.sum_cons, List.forall_mem_cons]
    exact ⟨by omega, fun hle => ⟨hall (by omega), halls (by omega)⟩⟩

variable (hclean : ∀ s ∈ files, Clean s.name)

include hclean

theorem rows_literal (hliteral : ∀ s ∈ files, Literal s.name) {rows : List (List Text)} :
    List.Forall₂ (List.Forall₂ (Displays c)) (files.map (fileRow mask)) rows ↔
      rows = files.map (fileRow mask) := by
  induction files generalizing rows with
  | nil => exact List.forall₂_nil_left_iff
  | cons s files ih =>
    rw [List.forall_mem_cons] at hliteral hclean hpictures
    have hrow {xs : List Text} :
        List.Forall₂ (Displays c) (fileRow mask s) xs ↔ xs = fileRow mask s := by
      simp [fileRow, List.forall₂_cons_left_iff, displays_others,
        displays_literal hpictures.1 hliteral.1 hclean.1]
    simp [List.forall₂_cons_left_iff, hrow, ih hpictures.2 hclean.2 hliteral.2]

/-- A table of what is shown holds no surrogates. -/
theorem rows_encodable {rows : List (List Text)}
    (h : List.Forall₂ (List.Forall₂ (Displays c)) (files.map (fileRow mask)) rows) :
    ∀ cells ∈ rows, ∀ cell ∈ cells, Encodable cell := by
  induction files generalizing rows with
  | nil =>
    cases h
    exact nofun
  | cons s files ih =>
    rw [List.forall_mem_cons] at hclean hpictures
    obtain _ | ⟨_ | ⟨hname, hothers⟩, hrows⟩ := h
    refine List.forall_mem_cons.mpr
      ⟨List.forall_mem_cons.mpr ⟨?_, ?_⟩, ih hpictures.2 hclean.2 hrows⟩
    · exact displays_encodable hpictures.1 (clean_encodable hclean.1) hname
    · rw [displays_others.mp hothers]
      exact fun cell hcell => wordlike_encodable (otherCells_wordlike hcell)

end

def surrogate (p : CodePoint) : Nat := if p.isSurrogate then 1 else 0

theorem total_surrogate {t : Text} : total surrogate t = 0 ↔ Encodable t := by
  constructor
  · intro h p hp
    have hone := Text.total_mem (f := surrogate) hp
    by_contra hsurrogate
    rw [surrogate, if_pos (by simpa using hsurrogate)] at hone
    omega
  · intro h
    refine List.sum_eq_zero fun n hn => ?_
    obtain ⟨p, hp, rfl⟩ := List.mem_map.mp hn
    rw [surrogate, h p hp, if_neg Bool.false_ne_true]

theorem undrawn_surrogate : Table.Undrawn surrogate := by
  have hall : Table.drawn.all (fun p => surrogate p == 0) = true := rfl
  intro p hp
  simpa using List.all_eq_true.mp hall p hp

theorem undrawn_mark : Table.Undrawn mark := by
  have hall : Table.drawn.all (fun p => mark p == 0) = true := rfl
  intro p hp
  simpa using List.all_eq_true.mp hall p hp

theorem render_encodable (mask : Int) {rows : List (List Text)}
    (h : ∀ cells ∈ rows, ∀ cell ∈ cells, Encodable cell) :
    Encodable (Table.render ⟨(fileColumns mask).map FileColumn.column, rows⟩) := by
  rw [← total_surrogate]
  have hheadings : totals surrogate
      (((fileColumns mask).map FileColumn.column).map Column.heading) = 0 :=
    totals_none fun heading hmem =>
      total_surrogate.mpr (wordlike_encodable (headings_wordlike mask heading hmem))
  have hrows : (rows.map (totals surrogate)).sum = 0 := by
    refine List.sum_eq_zero fun n hn => ?_
    obtain ⟨cells, hcells, rfl⟩ := List.mem_map.mp hn
    exact totals_none fun cell hcell => total_surrogate.mpr (h cells hcells cell hcell)
  exact Nat.le_zero.mp ((Table.total_render undrawn_surrogate hheadings).trans_eq hrows)

/-! Answers. -/

theorem answer_eq (r : QueryAnswer) (mask : Int) : answer r (.int mask) =
    (r.files.mapM fun s => (fileColumns mask).mapM fun c => lift .tooLong (c.cell s)) >>=
      fun cells => (cells.mapM fun row => row.mapM shown) >>= fun rows =>
        display (Table.render ⟨(fileColumns mask).map FileColumn.column, rows⟩) >>= fun _ =>
          printLine (clockMarkup r) := rfl

theorem display_run {t : Text} (h : Encodable t) (p : Printer α) (out : Text) :
    ((display t >>= fun _ => p).run c).run out = (p.run c).run (out ++ t) := by
  have hdisplay : ((display t).run c).run out = .ok () (out ++ t) := write_text c h c.advice out
  rw [printer_bind, hdisplay]

/-- An answer without controls and codes of pictures in its names and clock, whose table is no wider
than the console. -/
structure Presentable (c : Console) (r : QueryAnswer) (mask : Int) : Prop where
  names : ∀ s ∈ r.files, Clean s.name ∧ Pictureless c s.name
  clock : Clean r.clock ∧ Pictureless c (clockMarkup r)
  breadth : (fileTable r mask).breadth ≤ c.width

theorem answer_ok {r : QueryAnswer} {mask : Int} (h : Presentable c r mask) {out out' : Text} :
    ((answer r (.int mask)).run c).run out = .ok () out' ↔ (∀ s ∈ r.files, SizeShort mask s) ∧
      ∃ rows, List.Forall₂ (List.Forall₂ (Displays c)) (r.files.map (fileRow mask)) rows ∧
        ((printLine (clockMarkup r)).run c).run
          (out ++ Table.render ⟨(fileColumns mask).map FileColumn.column, rows⟩) = .ok () out' := by
  have hcells : Reads c
      (r.files.mapM fun s => (fileColumns mask).mapM fun c => lift .tooLong (c.cell s))
      (List.Forall₂ (fun s cells => List.Forall₂ (fun c cell => FileColumn.cell c s = .ok cell)
        (fileColumns mask) cells) r.files) :=
    reads_mapM (fun s => reads_mapM (fun column => reads_lift c _ _) _) _
  have hrows (cells : List (List Text)) : Reads c (cells.mapM fun row => row.mapM shown)
      (List.Forall₂ (List.Forall₂ (Displays c)) cells) :=
    reads_mapM (fun row => reads_mapM (reads_shown c) row) cells
  have hdisplayed {rows : List (List Text)}
      (hshown : List.Forall₂ (List.Forall₂ (Displays c)) (r.files.map (fileRow mask)) rows) :=
    display_run (c := c) (render_encodable mask (rows_encodable
      (fun s hs => (h.names s hs).2) (fun s hs => (h.names s hs).1) hshown))
      (printLine (clockMarkup r)) out
  rw [answer_eq, reads_bind hcells]
  constructor
  · rintro ⟨cells, hfiles, hrest⟩
    obtain ⟨rfl, hsizes⟩ := rows_cells.mp hfiles
    obtain ⟨rows, hshown, hprinted⟩ := (reads_bind (hrows _) _ _ _ _).mp hrest
    rw [hdisplayed hshown] at hprinted
    exact ⟨hsizes, rows, hshown, hprinted⟩
  · rintro ⟨hsizes, rows, hshown, hprinted⟩
    refine ⟨_, rows_cells.mpr ⟨rfl, hsizes⟩, (reads_bind (hrows _) _ _ _ _).mpr ⟨rows, hshown, ?_⟩⟩
    rwa [hdisplayed hshown]

/-- An answer as its table, with a row of one line for each file, and the line below it. -/
def answerText (r : QueryAnswer) (mask : Int) : Text :=
  (fileTable r mask).plain ++ (clockLine r ++ ("\n" : Text))

theorem fileTable_lengths (r : QueryAnswer) (mask : Int) :
    ∀ cells ∈ (fileTable r mask).rows, cells.length = (fileTable r mask).columns.length := by
  intro cells hcells
  obtain ⟨s, -, rfl⟩ := List.mem_map.mp hcells
  exact (fileRow_length mask s).trans (List.length_map _).symm

/-- Names that take one line do so in the table. -/
theorem fileTable_plain {r : QueryAnswer} {mask : Int} (hclean : ∀ s ∈ r.files, Clean s.name)
    (hunbroken : ∀ s ∈ r.files, Unbroken s.name) :
    (fileTable r mask).render = (fileTable r mask).plain := by
  have huntabbed {cell : Text} (h : Clean cell) : ('\t' : CodePoint) ∉ cell :=
    fun hmem => (clean_line h _ hmem).2 rfl
  refine Table.render_plain (List.cons_ne_nil _ _) (fileTable_lengths r mask) ?_
  intro cells hcells
  obtain ⟨s, hs, rfl⟩ := List.mem_map.mp hcells
  refine List.forall_mem_cons.mpr ⟨⟨hunbroken s hs, huntabbed (hclean s hs)⟩, fun cell hcell => ?_⟩
  have hword := otherCells_wordlike hcell
  exact ⟨wordlike_unbroken hword, huntabbed (wordlike_clean hword)⟩

/-- The marks of names and clock are in the text of an answer. -/
theorem answerText_marks (r : QueryAnswer) (mask : Int) :
    (r.files.map fun s => marks s.name).sum + marks r.clock ≤ marks (answerText r mask) := by
  have htable := Table.total_plain undrawn_mark (t := fileTable r mask) rfl rfl
    fun cells hcells => Table.widths_cover (fileTable_lengths r mask) hcells
  have hnames : (fileTable r mask).rows.map (fun cells => total mark (cells.headD [])) =
      r.files.map fun s => marks s.name := List.map_map
  have hmarks : marks (fileTable r mask).plain = total mark (fileTable r mask).plain := rfl
  rw [hnames] at htable
  rw [answerText, clockLine, Markup.marks_append, Markup.marks_append, Markup.marks_append,
    Markup.marks_append]
  omega

/-- No size is too long to be written out, and neither a name nor the clock is read as markup. -/
structure LiteralAnswer (r : QueryAnswer) (mask : Int) : Prop where
  sizes : ∀ s ∈ r.files, SizeShort mask s
  names : ∀ s ∈ r.files, Literal s.name
  clock : LiteralBefore (freshness r ++ ("[/dim]" : Text)) r.clock

/-- An answer that is shown as it is holds no markup. -/
theorem answer_literal {r : QueryAnswer} {mask : Int} {out : Text}
    (hpresentable : Presentable c r mask)
    (h : ((answer r (.int mask)).run c).run out = .ok () (out ++ answerText r mask)) :
    LiteralAnswer r mask := by
  obtain ⟨hsizes, rows, hrows, hprinted⟩ := (answer_ok hpresentable).mp h
  set table : Table := ⟨(fileColumns mask).map FileColumn.column, rows⟩
  have hclock : Encodable (clockMarkup r) :=
    clean_encodable (clockMarkup_clean hpresentable.clock.1)
  rw [printLine_shown hpresentable.clock.2 hclock] at hprinted
  cases htext : Markup.text c (clockMarkup r) with
  | error e =>
    rw [htext] at hprinted
    cases hprinted
  | ok t =>
    rw [htext] at hprinted
    injection hprinted with _ hout
    rw [List.append_assoc] at hout
    have hsplit : table.render ++ printed c.width t = answerText r mask :=
      List.append_cancel_left hout
    have hpictures := hpresentable.clock.2
    rw [clockMarkup_eq] at htext hpictures
    obtain ⟨hmost, hall⟩ := Markup.text_marks (around_clock r) hpictures htext
    obtain ⟨hnames, hliteral⟩ := rows_marks (fun s hs => (hpresentable.names s hs).2) hrows
    have hrender := Table.total_render undrawn_mark (t := table) (headings_unmarked mask)
    have hline := marks_printed c.width t
    have hcount : marks (fileCount r) = 0 := plain_marks (fileCount_plain r)
    have hanswer := answerText_marks r mask
    rw [← hsplit, Markup.marks_append] at hanswer
    rw [Markup.marks_append, hcount] at hmost hall
    have hrest : table.rows = rows := rfl
    have hmarks : marks table.render = total mark table.render := rfl
    rw [hrest] at hrender
    exact ⟨hsizes, hliteral (by omega), (fileCount_literal r).mp (hall (by omega))⟩

theorem answer_shows {r : QueryAnswer} {mask : Int} (h : Presentable c r mask)
    (hunbroken : ∀ s ∈ r.files, Unbroken s.name) (out : Text) :
    ((answer r (.int mask)).run c).run out = .ok () (out ++ answerText r mask) ↔
      LiteralAnswer r mask ∧ Fits c.width (clockLine r) := by
  have hclean : ∀ s ∈ r.files, Clean s.name := fun s hs => (h.names s hs).1
  have hprinted (hliteral : ∀ s ∈ r.files, Literal s.name) :
      ((answer r (.int mask)).run c).run out = .ok () (out ++ answerText r mask) ↔
        (∀ s ∈ r.files, SizeShort mask s) ∧
          LiteralBefore (freshness r ++ ("[/dim]" : Text)) r.clock ∧
          Fits c.width (clockLine r) := by
    rw [answer_ok h, ← clock_shows h.clock.1 h.clock.2 (out ++ (fileTable r mask).plain)]
    refine and_congr_right' ?_
    simp only [rows_literal (fun s hs => (h.names s hs).2) hclean hliteral, exists_eq_left]
    change ((printLine (clockMarkup r)).run c).run (out ++ (fileTable r mask).render) = _ ↔ _
    rw [fileTable_plain hclean hunbroken, answerText, List.append_assoc]
  constructor
  · intro hshown
    have hliteral := answer_literal h hshown
    exact ⟨hliteral, ((hprinted hliteral.names).mp hshown).2.2⟩
  · rintro ⟨hliteral, hfits⟩
    exact (hprinted hliteral.names).mpr ⟨hliteral.sizes, hliteral.clock, hfits⟩

theorem root_run (root out : Text) :
    ((roots ⟨[root]⟩).run c).run out = ((printLine root).run c).run out := by
  change (((printLine root >>= fun _ => pure () : Printer Unit).run c).run out) = _
  rw [printer_bind]
  cases ((printLine root).run c).run out <;> rfl

/-- On every console, roots, messages, names and clocks without controls and codes of pictures are
shown as they are exactly if they are literal and fit. A tag stands right behind a success message,
and behind a clock that is not of a fresh instance, so these may not end in a backslash. -/
theorem shown_iff_literal (c : Console) (out : Text) :
    (∀ w : WatchedRoots, (∀ root ∈ w.roots, Clean root ∧ Pictureless c root) → w.roots ≠ [] →
      (((roots w).run c).run out = .ok () (out ++ w.roots.flatMap (· ++ ("\n" : Text))) ↔
        ∀ root ∈ w.roots, Literal root ∧ Fits c.width root)) ∧
    (∀ w : WatchedRoots, w.roots = [] →
      (((roots w).run c).run out = .ok () (out ++ ("No watched roots\n" : Text)) ↔
        Fits c.width "No watched roots")) ∧
    (∀ message, Clean message → Pictureless c (failureMarkup message) →
      (((failure message).run c).run out =
          .ok () (out ++ (("Error: " : Text) ++ message ++ ("\n" : Text))) ↔
        Literal message ∧ Fits c.width (("Error: " : Text) ++ message))) ∧
    (∀ message, Clean message → Pictureless c (successMarkup message) →
      (((success message).run c).run out = .ok () (out ++ (message ++ ("\n" : Text))) ↔
        LiteralBefore "[/green]" message ∧ Fits c.width message)) ∧
    ∀ r mask, Presentable c r mask →
      (((answer r (.int mask)).run c).run out = .ok () (out ++ answerText r mask) →
        LiteralAnswer r mask) ∧
      ((∀ s ∈ r.files, Unbroken s.name) →
        (((answer r (.int mask)).run c).run out = .ok () (out ++ answerText r mask) ↔
          LiteralAnswer r mask ∧ Fits c.width (clockLine r))) :=
  ⟨fun _ hroots hne => roots_shows (fun root hroot => (hroots root hroot).1)
      (fun root hroot => (hroots root hroot).2) hne out,
    fun _ hempty => no_roots_shows hempty out,
    fun _ hclean hpictures => failure_shows hclean hpictures out,
    fun _ hclean hpictures => success_shows hclean hpictures out,
    fun _ _ hpresentable => ⟨answer_literal hpresentable,
      fun hunbroken => answer_shows hpresentable hunbroken out⟩⟩

/-- A bracket that begins no tag is shown, in a root, a message, a name and a clock. -/
theorem number_in_brackets :
    ((roots ⟨["/a[1]"]⟩).run {}).run [] = .ok () (("/a[1]" : Text) ++ "\n") ∧
    ((failure "a[1]").run {}).run [] = .ok () (("Error: " : Text) ++ "a[1]" ++ "\n") ∧
    ((success "a[1]").run {}).run [] = .ok () (("a[1]" : Text) ++ "\n") ∧
    ((answer ⟨[⟨"a[1]", true, 0, false, 0⟩], "4", "c[1]", false⟩ (.int 0)).run {}).run [] =
      .ok () (answerText ⟨[⟨"a[1]", true, 0, false, 0⟩], "4", "c[1]", false⟩ 0) := by
  obtain ⟨hroots, -, hfailure, hsuccess, hanswer⟩ := shown_iff_literal {} []
  have hclean : Clean "a[1]" := clean_of_all rfl
  have hfits {t : Text} (hwidth : t.width ≤ 80) (hlength : t.length ≤ 80) :
      Fits 80 t := ⟨hwidth, fun hlong => absurd hlength (Nat.not_le.mpr hlong)⟩
  refine ⟨?roots, ?failure, ?success, ?answer⟩
  case roots =>
    refine (hroots ⟨["/a[1]"]⟩ ?_ (List.cons_ne_nil _ _)).mpr ?_
    · exact List.forall_mem_singleton.mpr ⟨clean_of_all rfl, rfl⟩
    · exact List.forall_mem_singleton.mpr
        ⟨by decide +kernel, hfits (by decide +kernel) (by decide +kernel)⟩
  case failure =>
    exact (hfailure "a[1]" hclean rfl).mpr
      ⟨by decide +kernel, hfits (by decide +kernel) (by decide +kernel)⟩
  case success =>
    exact (hsuccess "a[1]" hclean rfl).mpr
      ⟨⟨by decide +kernel, fun _ => by decide⟩, hfits (by decide +kernel) (by decide +kernel)⟩
  case answer =>
    have hpresentable : Presentable {} ⟨[⟨"a[1]", true, 0, false, 0⟩], "4", "c[1]", false⟩ 0 :=
      ⟨List.forall_mem_singleton.mpr ⟨hclean, rfl⟩, ⟨clean_of_all rfl, rfl⟩, by decide +kernel⟩
    have hunbroken : Unbroken "a[1]" := by
      have hlines : ("a[1]" : Text).all (fun p => !Table.endsLine p) = true := rfl
      refine ⟨fun p hp => by simpa using List.all_eq_true.mp hlines p hp, ?_⟩
      rintro - _ ⟨⟩
      rfl
    refine ((hanswer _ _ hpresentable).2 (List.forall_mem_singleton.mpr hunbroken)).mpr ?_
    refine ⟨⟨?_, List.forall_mem_singleton.mpr (by decide +kernel), by decide +kernel, nofun⟩,
      hfits (by decide +kernel) (by decide +kernel)⟩
    exact List.forall_mem_singleton.mpr fun hsize => absurd hsize (by decide)

/-- A tag in a root is lost, and one that closes nothing ends the report. -/
theorem tag_in_root : ((roots ⟨["/a[b]"]⟩).run {}).run [] = .ok () "/a\n" ∧
    ((roots ⟨["/a[/b]"]⟩).run {}).run [] = .error (.markup (.notOpen ⟨"/b", none⟩ 2)) [] := by
  have hlost : Markup.text {} "/a[b]" = .ok "/a" := by decide +kernel
  have hprinted : printed 80 "/a" = "/a\n" := by decide +kernel
  have hclosed : Markup.text {} "/a[/b]" = .error (.notOpen ⟨"/b", none⟩ 2) := by decide +kernel
  constructor
  · rw [root_run, printLine_run, hlost]
    exact congrArg (fun t => EStateM.Result.ok () ([] ++ t)) hprinted
  · rw [root_run, printLine_run, hclosed]

end FileWatch.Report
