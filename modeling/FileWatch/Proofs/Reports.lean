import FileWatch.Proofs.Printed
import FileWatch.Proofs.Wrapping
/-!
Reports. A reported error stands on a line that begins as such, whatever its message, and a report
breaks off over its markup and its texts and nothing else.
-/

namespace FileWatch.Report

open FileWatch.Json (Encodable encodable_of_all)

variable {c : Console}

/-! Lines. -/

def printed (width : Nat) (t : Text) : Text :=
  (Text.wrap width (t.filter fun p => !isControl p)).flatMap (· ++ ("\n" : Text))

theorem printLine_run (c : Console) (markup out : Text) :
    ((printLine markup).run c).run out = match Markup.text c markup with
      | .ok t => ((write c.advice (printed c.width t)).run c).run out
      | .error e => .error (.markup e) out := by
  unfold printLine shown
  rw [printer_bind]
  change (((lift .markup (Markup.text c markup) >>= _ : Printer Text) >>= _ : Printer Unit).run
    c).run out = _
  rw [printer_bind]
  cases Markup.text c markup <;> rfl

/-- A text that is printed as the report of an error. A console narrower than its first word breaks
that in pieces. -/
structure ErrorLine (c : Console) (t : Text) : Prop where
  begins : 6 ≤ c.width → ∃ rest, t = ("Error:" : Text) ++ rest
  ends : ∃ front, t = front ++ ("\n" : Text)

theorem pieces_failure (message : Text) :
    Markup.pieces (("[red]Error:[/red] " : Text) ++ message) =
      .tag 0 ⟨"red", none⟩ :: (("Error:" : Text).map Markup.Piece.plain ++
        .tag 11 ⟨"/red", none⟩ :: .plain ' ' :: Markup.piecesFrom 18 0 0 message) := rfl

/-- White space follows the colon, which therefore belongs to no picture. -/
theorem failure_text {message t : Text}
    (h : Markup.text c (("[red]Error:[/red] " : Text) ++ message) = .ok t) :
    ∃ rest, t = ("Error:" : Text) ++ rest := by
  have hall : ("Error" : Text).all (fun p => p != ':') = true := rfl
  have hfront : ∀ p ∈ ("Error" : Text), p ≠ ':' := by simpa using List.all_eq_true.mp hall
  unfold Markup.text at h
  rw [pieces_failure] at h
  generalize Markup.piecesFrom 18 0 0 message = others at h
  simp only [bind, Except.bind, pure, Except.pure] at h
  split at h
  · cases h
  · split at h
    · cases h
    · cases h
      obtain ⟨rest, hrest⟩ := c.pictured_front (("[red]Error:[/red] " : Text) ++ message) "Error"
        ' ' (others.filterMap Markup.Piece.plain?) hfront rfl
      exact ⟨' ' :: rest, hrest⟩

theorem printed_begins {n : Nat} (hn : 6 ≤ n) (rest : Text) :
    ∃ rest', printed n (("Error:" : Text) ++ rest) = ("Error:" : Text) ++ rest' := by
  have hsolid : Text.Solid ("Error:" : Text) := by
    have hall : ("Error:" : Text).all (fun p => !p.isBlank) = true := rfl
    intro p hp
    simpa using List.all_eq_true.mp hall p hp
  have hwidth : Text.width ("Error:" : Text) = 6 := by decide +kernel
  have hshown : (("Error:" : Text) ++ rest).filter (fun p => !isControl p) =
      ("Error:" : Text) ++ rest.filter (fun p => !isControl p) := rfl
  obtain ⟨r, ls, hwrap⟩ := Text.wrap_front hsolid (by decide) (hwidth.trans_le hn)
    (rest.filter fun p => !isControl p)
  unfold printed
  rw [hshown, hwrap]
  exact ⟨r ++ ("\n" : Text) ++ ls.flatMap (· ++ ("\n" : Text)), by simp⟩

theorem printed_ends (n : Nat) (t : Text) : ∃ front, printed n t = front ++ ("\n" : Text) := by
  unfold printed
  obtain hnil | ⟨lines, last, hlines⟩ :=
    List.eq_nil_or_concat' (Text.wrap n (t.filter fun p => !isControl p))
  · exact absurd hnil (Text.wrap_ne_nil _ _)
  · refine ⟨lines.flatMap (· ++ ("\n" : Text)) ++ last, ?_⟩
    rw [hlines]
    simp

theorem failure_line {message t : Text} (h : ((failure message).run c).run [] = .ok () t) :
    ErrorLine c t := by
  rw [failure, printLine_run] at h
  cases hmarkup : Markup.text c (("[red]Error:[/red] " : Text) ++ message) with
  | error e =>
    rw [hmarkup] at h
    cases h
  | ok shown =>
    rw [hmarkup] at h
    dsimp only at h
    rw [write_run] at h
    obtain ⟨rest, rfl⟩ := failure_text hmarkup
    cases hwrite : c.write (printed c.width (("Error:" : Text) ++ rest)) with
    | error e =>
      rw [hwrite] at h
      cases h
    | ok w =>
      rw [hwrite] at h
      cases h
      constructor
      · intro hwidth
        obtain ⟨rest', hrest⟩ := printed_begins hwidth rest
        rw [hrest] at hwrite
        exact write_front (encodable_of_all rfl) hwrite
      · obtain ⟨front, hfront⟩ := printed_ends c.width (("Error:" : Text) ++ rest)
        rw [hfront] at hwrite
        rcases write_cases hwrite with rfl | rfl
        · exact ⟨front, rfl⟩
        · exact ⟨front.flatMap Console.escape, by rw [List.flatMap_append]; rfl⟩

/-! Reports that break off. -/

theorem printingOnly_roots (w : WatchedRoots) : PrintingOnly (roots w) := by
  unfold roots
  split
  · exact printingOnly_printLine _
  · exact printingOnly_forM printingOnly_printLine _

theorem fileColumns_cells {mask : Int} {c : FileColumn} (hc : c ∈ fileColumns mask) {s : FileRecord}
    (hs : s.size.natAbs < 10 ^ Numeral.digitLimit) : ∃ t, c.cell s = .ok t := by
  have hsize : Numeral.write s.size = .ok (Text.ofInt s.size) := by rw [Numeral.write, if_pos hs]
  have hoptional {f : Field} {column : FileColumn}
      (hmem : c ∈ if Field.isIn mask f then [column] else []) (hcell : ∃ t, column.cell s = .ok t) :
      ∃ t, c.cell s = .ok t := by
    split at hmem
    · rw [List.mem_singleton.mp hmem]
      exact hcell
    · cases hmem
  simp only [fileColumns, List.mem_append, List.mem_singleton] at hc
  rcases hc with ((rfl | hc) | hc) | hc
  · exact ⟨_, rfl⟩
  · exact hoptional hc ⟨_, rfl⟩
  · refine hoptional hc ?_
    dsimp only
    rw [hsize]
    exact ⟨_, rfl⟩
  · exact hoptional hc ⟨_, rfl⟩

theorem printingOnly_answer {r : QueryAnswer} (h : WithinLimit r) (mask : Int) :
    PrintingOnly (answer r (.int mask)) := by
  refine printingOnly_bind (printingOnly_pure mask) fun m => ?_
  refine printingOnly_bind (printingOnly_mapM fun s hs => printingOnly_mapM fun column hmem => ?_)
    fun cells => ?_
  · obtain ⟨t, ht⟩ := fileColumns_cells hmem (h s hs).2
    rw [ht]
    exact printingOnly_pure t
  · refine printingOnly_bind (printingOnly_mapM fun row _ => ?_) fun rows => ?_
    · exact printingOnly_mapM fun cell _ => printingOnly_shown cell
    · exact printingOnly_bind (printingOnly_display _) fun _ => printingOnly_printLine _

theorem printingOnly_answerJson {r : QueryAnswer} (h : WithinLimit r) :
    PrintingOnly (answerJson r) := by
  obtain ⟨s, hs⟩ := Json.encodeAt_ok.mpr (queryValue_serializable.mpr h)
  rw [answerJson, Json.encode, hs]
  exact printingOnly_display _

end FileWatch.Report
