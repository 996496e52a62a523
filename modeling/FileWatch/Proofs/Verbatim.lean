import FileWatch.Proofs.Literal
import FileWatch.Proofs.Reports
/-!
Lines that show a text as it is. A text without controls that is printed as markup stands on a line
of its own, code point for code point, exactly if it is literal and fits the console.
-/

namespace FileWatch.Report

open FileWatch.Json (Encodable encodable_of_all)
open Markup (Around Literal LiteralBefore Pictureless mark marks)
open Text (Fits)

variable {c : Console}

/-- No control and no surrogate. -/
def isClean (p : CodePoint) : Bool :=
  !(p.val < 0x20 || (0x7f ≤ p.val && p.val ≤ 0x9f)) && !p.isSurrogate

def Clean (t : Text) : Prop := ∀ p ∈ t, isClean p = true

theorem clean_append {s t : Text} : Clean (s ++ t) ↔ Clean s ∧ Clean t := List.forall_mem_append

theorem clean_of_all {t : Text} (h : t.all isClean = true) : Clean t := List.all_eq_true.mp h

theorem clean_line {t : Text} (h : Clean t) : ∀ c ∈ t, c ≠ '\n' ∧ c ≠ '\t' := by
  intro c hc
  have hclean := h c hc
  constructor <;> rintro rfl <;> revert hclean <;> decide

theorem clean_shown {t : Text} (h : Clean t) : t.filter (fun p => !isControl p) = t := by
  rw [List.filter_eq_self]
  intro p hp
  have hclean := h p hp
  simp [isClean, isControl] at hclean ⊢
  omega

theorem clean_encodable {t : Text} (h : Clean t) : Encodable t := by
  intro p hp
  have hclean := h p hp
  rw [isClean, Bool.and_eq_true] at hclean
  exact Bool.not_eq_true' _ ▸ hclean.2

/-! Lines. -/

theorem split_line {p : CodePoint → Bool} {l : Text} (hl : ∀ c ∈ l, p c = false) {d : CodePoint}
    (hd : p d = true) (rest : Text) :
    Text.split p (l ++ (d :: rest : Text)) = l :: Text.split p rest := by
  induction l with
  | nil => simp [Text.split, hd]
  | cons c l ih =>
    rw [List.forall_mem_cons] at hl
    rw [List.cons_append, Text.split, hl.1, ih hl.2]
    rfl

theorem split_lines {ls : List Text} (h : ∀ l ∈ ls, ∀ c ∈ l, c ≠ '\n') :
    Text.split (· = '\n') (ls.flatMap (· ++ ("\n" : Text))) = ls ++ [[]] := by
  induction ls with
  | nil => rfl
  | cons l ls ih =>
    rw [List.forall_mem_cons] at h
    have hl : ∀ c ∈ l, decide (c = ('\n' : CodePoint)) = false :=
      fun c hc => decide_eq_false (h.1 c hc)
    have hsplit := split_line hl (d := '\n') rfl (ls.flatMap (· ++ ("\n" : Text)))
    rw [ih h.2] at hsplit
    rw [List.flatMap_cons, List.append_assoc]
    exact hsplit

/-- Lines can be told apart by their ends. -/
theorem lines_unique {ls ms : List Text} (hls : ∀ l ∈ ls, ∀ c ∈ l, c ≠ '\n')
    (hms : ∀ m ∈ ms, ∀ c ∈ m, c ≠ '\n')
    (h : ls.flatMap (· ++ ("\n" : Text)) = ms.flatMap (· ++ ("\n" : Text))) : ls = ms := by
  have hsplit := congrArg (Text.split (· = '\n')) h
  rw [split_lines hls, split_lines hms] at hsplit
  exact List.append_cancel_right hsplit

theorem wrap_line {n : Nat} {t : Text} (h : ∀ c ∈ t, c ≠ '\n') :
    ∀ l ∈ Text.wrap n t, ∀ c ∈ l, c ≠ '\n' := by
  rintro l hl _ hc rfl
  exact h _ (Text.wrap_mem hl hc (by decide)) rfl

theorem printed_clean (n : Nat) {t : Text} (h : Clean t) :
    printed n t = (Text.wrap n t).flatMap (· ++ ("\n" : Text)) := by
  rw [printed, clean_shown h]

/-- Texts without controls are printed on a line each, as they are, exactly if they fit. -/
theorem printed_all_fit {n : Nat} {ts : List Text} (h : ∀ t ∈ ts, Clean t) :
    ts.flatMap (printed n) = ts.flatMap (· ++ ("\n" : Text)) ↔ ∀ t ∈ ts, Fits n t := by
  have hline : ∀ t ∈ ts, ∀ c ∈ t, c ≠ '\n' := fun t ht c hc => (clean_line (h t ht) c hc).1
  have hprinted : ts.flatMap (printed n) =
      (ts.flatMap (Text.wrap n)).flatMap (· ++ ("\n" : Text)) := by
    rw [List.flatMap_assoc]
    exact List.flatMap_congr fun t ht => printed_clean n (h t ht)
  rw [hprinted]
  constructor
  · intro hsame t ht
    have hlines : ts.flatMap (Text.wrap n) = ts := by
      refine lines_unique (fun l hl => ?_) hline hsame
      obtain ⟨t, ht, hl⟩ := List.mem_flatMap.mp hl
      exact wrap_line (hline t ht) l hl
    have hwidth : ∀ t ∈ ts, t.width ≤ n := by
      intro t ht
      rw [← hlines] at ht
      obtain ⟨_, -, hwrap⟩ := List.mem_flatMap.mp ht
      exact Text.wrap_width hwrap
    have hcut : ts.map (Text.cutTo n) = ts.map id := by
      rw [List.map_id, ← List.flatMap_singleton' (ts.map _), List.flatMap_map]
      refine (List.flatMap_congr fun t ht => ?_).trans hlines
      exact (Text.wrap_fitting (clean_line (h t ht)) (hwidth t ht)).symm
    exact (Text.cutTo_fitting (hwidth t ht)).mp (List.map_inj_left.mp hcut t ht)
  · intro hfits
    rw [List.flatMap_assoc]
    refine List.flatMap_congr fun t ht => ?_
    rw [(Text.wrap_fits (clean_line (h t ht))).mpr (hfits t ht), List.flatMap_singleton]

theorem printed_fits {n : Nat} {t : Text} (h : Clean t) :
    printed n t = t ++ ("\n" : Text) ↔ Fits n t := by
  have hall : ∀ u ∈ [t], Clean u := by simpa using h
  simpa using printed_all_fit hall

theorem marks_lines (ls : List Text) :
    marks (ls.flatMap (· ++ ("\n" : Text))) = Text.totals mark ls := by
  induction ls with
  | nil => rfl
  | cons l ls ih =>
    rw [List.flatMap_cons, Markup.marks_append, Markup.marks_append, ih]
    rfl

/-- Printing adds no marks. -/
theorem marks_printed (n : Nat) (t : Text) : marks (printed n t) ≤ marks t := by
  rw [printed, marks_lines]
  exact Nat.le_trans (Text.total_wrap rfl _ _) (Text.total_sublist mark List.filter_sublist)

/-! What is written. -/

theorem printed_encodable (n : Nat) {t : Text} (h : Encodable t) : Encodable (printed n t) := by
  intro p hp
  obtain ⟨line, hline, hp⟩ := List.mem_flatMap.mp hp
  rcases List.mem_append.mp hp with hp | hp
  · by_cases hspace : p = ' '
    · rw [hspace]
      rfl
    · exact h p (List.mem_of_mem_filter (Text.wrap_mem hline hp hspace))
  · rw [List.mem_singleton.mp hp]
    rfl

theorem text_encodable {markup t : Text} (hpictures : Pictureless c markup)
    (hmarkup : Encodable markup) (h : Markup.text c markup = .ok t) : Encodable t := by
  rw [Markup.text_plains hpictures h]
  intro p hp
  by_cases hslash : p = '\\'
  · rw [hslash]
    rfl
  · exact hmarkup p (Markup.plains_mem hslash hp)

theorem printLine_shown {markup : Text} (hpictures : Pictureless c markup)
    (hmarkup : Encodable markup) (out : Text) :
    ((printLine markup).run c).run out = match Markup.text c markup with
      | .ok t => .ok () (out ++ printed c.width t)
      | .error e => .error (.markup e) out := by
  rw [printLine_run]
  cases htext : Markup.text c markup with
  | error e => rfl
  | ok t => exact write_text c (printed_encodable _ (text_encodable hpictures hmarkup htext)) _ _

theorem printLine_ok {markup : Text} (hpictures : Pictureless c markup)
    (hmarkup : Encodable markup) {out o : Text} :
    ((printLine markup).run c).run out = .ok () (out ++ o) ↔
      ∃ t, Markup.text c markup = .ok t ∧ o = printed c.width t := by
  rw [printLine_shown hpictures hmarkup]
  cases Markup.text c markup with
  | error e => exact iff_of_false nofun nofun
  | ok t =>
    constructor
    · intro h
      injection h with _ hout
      exact ⟨t, rfl, (List.append_cancel_left hout).symm⟩
    · rintro ⟨_, ⟨⟩, rfl⟩
      rfl

/-- Text in markup is printed on a line of its own, as it is, exactly if it is literal and that line
fits the console. -/
theorem printLine_shows {front before s after t : Text} (h : Around front before s after)
    (hmarkup : Encodable front ∧ Encodable s) (hclean : Clean (before ++ (t ++ after)))
    (hpictures : Pictureless c (front ++ (t ++ s))) (out : Text) :
    ((printLine (front ++ (t ++ s))).run c).run out =
        .ok () (out ++ (before ++ (t ++ after) ++ ("\n" : Text))) ↔
      LiteralBefore s t ∧ Fits c.width (before ++ (t ++ after)) := by
  have ht : Encodable t := clean_encodable (clean_append.mp (clean_append.mp hclean).2).1
  have hencodable : Encodable (front ++ (t ++ s)) :=
    List.forall_mem_append.mpr ⟨hmarkup.1, List.forall_mem_append.mpr ⟨ht, hmarkup.2⟩⟩
  rw [printLine_ok hpictures hencodable]
  constructor
  · rintro ⟨x, htext, hprinted⟩
    obtain ⟨hmost, hall⟩ := Markup.text_marks h hpictures htext
    have hmarks := marks_printed c.width x
    have hnewline : marks ("\n" : Text) = 0 := rfl
    rw [← hprinted, Markup.marks_append, Markup.marks_append, Markup.marks_append, h.unmarked.1,
      h.unmarked.2, hnewline] at hmarks
    have hliteral : LiteralBefore s t := hall (by omega)
    refine ⟨hliteral, (printed_fits hclean).mp ?_⟩
    rw [Markup.text_literal h hpictures hliteral] at htext
    cases htext
    exact hprinted.symm
  · rintro ⟨hliteral, hfits⟩
    exact ⟨_, Markup.text_literal h hpictures hliteral, ((printed_fits hclean).mpr hfits).symm⟩

/-! Reports of one line. -/

/-- The styles of the reports' own tags. -/
theorem report_styles : ∀ name ∈ (["red", "green", "dim"] : List Text),
    Style.normalName name = .ok name ∧ Markup.Tag.isStyle ⟨name, none⟩ = true := by
  decide +kernel

theorem around_failure : Around "[red]Error:[/red] " "Error: " [] [] := by
  obtain ⟨hnormal, hstyle⟩ := report_styles "red" List.mem_cons_self
  refine ⟨fun _ => rfl, Markup.behind_nil, rfl, fun _ => rfl, ⟨rfl, rfl⟩, fun _ => ?_, fun _ => ?_⟩
  · exact Markup.follow_pair hnormal rfl rfl nofun 0 11
  · exact Markup.pair_simple hstyle rfl 0 11

theorem around_success : Around "[green]" [] "[/green]" [] := by
  have hbody : Markup.tagBody? "/green]" = some "/green" := by decide +kernel
  obtain ⟨hnormal, hstyle⟩ := report_styles "green" (List.mem_cons_of_mem _ List.mem_cons_self)
  refine ⟨fun _ => rfl, Markup.behind_tag hbody rfl, rfl, fun _ => rfl, ⟨rfl, rfl⟩, fun p => ?_,
    fun p => ?_⟩
  · exact Markup.follow_pair hnormal rfl rfl nofun 0 p
  · exact Markup.pair_simple hstyle rfl 0 p

theorem style_dim :
    Style.normalName "dim" = .ok "dim" ∧ Markup.Tag.isStyle ⟨"dim", none⟩ = true :=
  report_styles "dim" (List.mem_cons_of_mem _ (List.mem_cons_of_mem _ List.mem_cons_self))

theorem behind_dim : Markup.Behind "[/dim]" := by
  have hbody : Markup.tagBody? "/dim]" = some "/dim" := by decide +kernel
  exact Markup.behind_tag hbody rfl

theorem around_dim : Around "[dim]" [] "[/dim]" [] := by
  refine ⟨fun _ => rfl, behind_dim, rfl, fun _ => rfl, ⟨rfl, rfl⟩, fun p => ?_, fun p => ?_⟩
  · exact Markup.follow_pair style_dim.1 rfl rfl nofun 0 p
  · exact Markup.pair_simple style_dim.2 rfl 0 p

def failureMarkup (message : Text) : Text := ("[red]Error:[/red] " : Text) ++ message

def successMarkup (message : Text) : Text := ("[green]" : Text) ++ message ++ "[/green]"

theorem failure_shows {message : Text} (h : Clean message)
    (hpictures : Pictureless c (failureMarkup message)) (out : Text) :
    ((failure message).run c).run out =
        .ok () (out ++ (("Error: " : Text) ++ message ++ ("\n" : Text))) ↔
      Literal message ∧ Fits c.width (("Error: " : Text) ++ message) := by
  have hclean : Clean (("Error: " : Text) ++ (message ++ [])) := by
    rw [List.append_nil]
    exact clean_append.mpr ⟨clean_of_all rfl, h⟩
  have hfront : Encodable "[red]Error:[/red] " := encodable_of_all rfl
  have hshows := printLine_shows (c := c) (t := message) around_failure ⟨hfront, nofun⟩ hclean
  rw [List.append_nil] at hshows
  rw [failure, hshows hpictures, Markup.literalBefore_nil]

theorem success_shows {message : Text} (h : Clean message)
    (hpictures : Pictureless c (successMarkup message)) (out : Text) :
    ((success message).run c).run out = .ok () (out ++ (message ++ ("\n" : Text))) ↔
      LiteralBefore "[/green]" message ∧ Fits c.width message := by
  have hmarkup : Encodable "[green]" ∧ Encodable "[/green]" :=
    ⟨encodable_of_all rfl, encodable_of_all rfl⟩
  have hshows := printLine_shows (c := c) (t := message) around_success hmarkup (by simpa using h)
  rw [List.append_nil, ← List.append_assoc] at hshows
  exact hshows hpictures out

/-! The last line of an answer. -/

def freshness (r : QueryAnswer) : Text := if r.isFreshInstance then " (fresh instance)" else ""

def fileCount (r : QueryAnswer) : Text := Text.ofNat r.files.length ++ " files, clock "

def clockLine (r : QueryAnswer) : Text := fileCount r ++ r.clock ++ freshness r

def clockMarkup (r : QueryAnswer) : Text :=
  ("[dim]" : Text) ++ Text.ofNat r.files.length ++ " files, clock " ++ r.clock ++ freshness r ++
    "[/dim]"

def isPlain (c : CodePoint) : Bool := isClean c && c != '[' && c != ']' && c != '\\'

theorem isPlain_iff {c : CodePoint} :
    isPlain c = true ↔ ((isClean c = true ∧ c ≠ '[') ∧ c ≠ ']') ∧ c ≠ '\\' := by
  simp [isPlain]

theorem isPlain_digit {c : CodePoint} (h : c.isAsciiDigit = true) : isPlain c = true := by
  refine isPlain_iff.mpr ⟨⟨⟨?_, ?_⟩, ?_⟩, ?_⟩
  · simp [CodePoint.isAsciiDigit, isClean, CodePoint.isSurrogate] at h ⊢
    omega
  all_goals
    rintro rfl
    revert h
    decide

theorem fileCount_plain (r : QueryAnswer) : ∀ c ∈ fileCount r, isPlain c = true := by
  have hrest : (" files, clock " : Text).all isPlain = true := rfl
  refine List.forall_mem_append.mpr ⟨fun c hc => ?_, List.all_eq_true.mp hrest⟩
  exact isPlain_digit ((Json.ofNat_digits _).2 c hc)

theorem freshness_plain (r : QueryAnswer) : ∀ c ∈ freshness r, isPlain c = true := by
  have hfresh : (" (fresh instance)" : Text).all isPlain = true := rfl
  unfold freshness
  split
  · exact List.all_eq_true.mp hfresh
  · exact nofun

theorem around_clock (r : QueryAnswer) :
    Around "[dim]" [] (freshness r ++ ("[/dim]" : Text)) (freshness r) := by
  have hbehind : Markup.Behind (freshness r ++ ("[/dim]" : Text)) := by
    refine Markup.behind_append (fun p hp => ?_) behind_dim
    obtain ⟨⟨⟨-, hopens⟩, hcloses⟩, hslash⟩ := isPlain_iff.mp (freshness_plain r p hp)
    exact ⟨hslash, hopens, hcloses⟩
  revert hbehind
  unfold freshness
  cases r.isFreshInstance with
  | false => exact fun _ => around_dim
  | true =>
    intro hbehind
    refine ⟨fun _ => rfl, hbehind, rfl, fun _ => rfl, ⟨rfl, rfl⟩, fun p => ?_, fun p => ?_⟩
    · exact Markup.follow_pair style_dim.1 rfl rfl nofun 0 (p + 17)
    · exact Markup.pair_simple style_dim.2 rfl 0 (p + 17)

theorem clockMarkup_eq (r : QueryAnswer) : clockMarkup r =
    ("[dim]" : Text) ++ ((fileCount r ++ r.clock) ++ (freshness r ++ ("[/dim]" : Text))) := by
  simp [clockMarkup, fileCount]

theorem fileCount_literal (r : QueryAnswer) {s : Text} :
    LiteralBefore s (fileCount r ++ r.clock) ↔ LiteralBefore s r.clock := by
  refine Markup.literalBefore_append fun c hc => ?_
  obtain ⟨⟨⟨-, hopens⟩, -⟩, hslash⟩ := isPlain_iff.mp (fileCount_plain r c hc)
  exact ⟨hopens, hslash⟩

theorem plain_clean {t : Text} (h : ∀ c ∈ t, isPlain c = true) : Clean t :=
  fun c hc => (isPlain_iff.mp (h c hc)).1.1.1

theorem plain_marks {t : Text} (h : ∀ c ∈ t, isPlain c = true) : marks t = 0 := by
  refine List.sum_eq_zero fun n hn => ?_
  obtain ⟨c, hc, rfl⟩ := List.mem_map.mp hn
  obtain ⟨⟨⟨-, hopens⟩, -⟩, hslash⟩ := isPlain_iff.mp (h c hc)
  rw [mark, if_neg hslash, if_neg hopens]

theorem clockMarkup_clean {r : QueryAnswer} (h : Clean r.clock) : Clean (clockMarkup r) := by
  rw [clockMarkup_eq]
  refine clean_append.mpr ⟨clean_of_all rfl, clean_append.mpr ⟨clean_append.mpr ⟨?_, h⟩,
    clean_append.mpr ⟨?_, clean_of_all rfl⟩⟩⟩
  · exact plain_clean (fileCount_plain r)
  · exact plain_clean (freshness_plain r)

theorem clock_shows {r : QueryAnswer} (h : Clean r.clock)
    (hpictures : Pictureless c (clockMarkup r)) (out : Text) :
    ((printLine (clockMarkup r)).run c).run out =
        .ok () (out ++ (clockLine r ++ ("\n" : Text))) ↔
      LiteralBefore (freshness r ++ ("[/dim]" : Text)) r.clock ∧
        Fits c.width (clockLine r) := by
  have hclean : Clean (clockLine r) :=
    clean_append.mpr ⟨clean_append.mpr ⟨plain_clean (fileCount_plain r), h⟩,
      plain_clean (freshness_plain r)⟩
  have hmarkup : Encodable "[dim]" ∧ Encodable (freshness r ++ ("[/dim]" : Text)) := by
    refine ⟨encodable_of_all rfl, clean_encodable (clean_append.mpr ⟨?_, clean_of_all rfl⟩)⟩
    exact plain_clean (freshness_plain r)
  have hshows := printLine_shows (c := c) (around_clock r) hmarkup hclean
  rw [fileCount_literal, ← clockMarkup_eq] at hshows
  exact hshows hpictures out

/-! Roots. -/

theorem forM_printLine {markups : List Text} (hpictures : ∀ markup ∈ markups, Pictureless c markup)
    (hmarkups : ∀ markup ∈ markups, Encodable markup) {out out' : Text} :
    ((markups.forM printLine).run c).run out = .ok () out' ↔
      ∃ ts, List.Forall₂ (fun markup t => Markup.text c markup = .ok t) markups ts ∧
        out' = out ++ ts.flatMap (printed c.width) := by
  induction markups generalizing out with
  | nil =>
    constructor
    · rintro ⟨⟩
      exact ⟨[], .nil, (List.append_nil _).symm⟩
    · rintro ⟨_, ⟨⟩, rfl⟩
      rw [List.flatMap_nil, List.append_nil]
      rfl
  | cons markup markups ih =>
    rw [List.forall_mem_cons] at hpictures hmarkups
    change ((printLine markup >>= fun _ => markups.forM printLine).run c).run out = _ ↔ _
    rw [printer_bind, printLine_shown hpictures.1 hmarkups.1]
    cases htext : Markup.text c markup with
    | error e =>
      refine iff_of_false nofun ?_
      rintro ⟨_, _ | ⟨hmarkup, -⟩, -⟩
      rw [htext] at hmarkup
      cases hmarkup
    | ok t =>
      refine (ih hpictures.2 hmarkups.2).trans ⟨?_, ?_⟩
      · rintro ⟨ts, hts, rfl⟩
        exact ⟨t :: ts, .cons htext hts, by rw [List.flatMap_cons, List.append_assoc]⟩
      · rintro ⟨_, _ | ⟨hmarkup, hts⟩, rfl⟩
        rw [htext] at hmarkup
        cases hmarkup
        exact ⟨_, hts, by rw [List.flatMap_cons, List.append_assoc]⟩

theorem marks_all_printed (n : Nat) (ts : List Text) :
    marks (ts.flatMap (printed n)) ≤ Text.totals mark ts := by
  induction ts with
  | nil => exact Nat.le_refl _
  | cons t ts ih =>
    have ht := marks_printed n t
    rw [List.flatMap_cons, Markup.marks_append, Text.totals_cons]
    exact Nat.add_le_add ht ih

section

variable {markups ts : List Text} (hpictures : ∀ markup ∈ markups, Pictureless c markup)

include hpictures

/-- Texts are printed with all their marks only if they are literal. -/
theorem all_literal (h : List.Forall₂ (fun markup t => Markup.text c markup = .ok t) markups ts) :
    Text.totals mark ts ≤ Text.totals mark markups ∧
      (Text.totals mark markups ≤ Text.totals mark ts → ∀ markup ∈ markups, Literal markup) := by
  induction h with
  | nil => exact ⟨Nat.le_refl _, fun _ => nofun⟩
  | @cons markup t _ _ htext _ ih =>
    rw [List.forall_mem_cons] at hpictures
    obtain ⟨hmost, hall⟩ := Markup.text_keeps hpictures.1 htext
    obtain ⟨hmosts, halls⟩ := ih hpictures.2
    have hmark : marks markup = Text.total mark markup ∧ marks t = Text.total mark t := ⟨rfl, rfl⟩
    rw [Text.totals_cons, Text.totals_cons, List.forall_mem_cons]
    exact ⟨by omega, fun hle => ⟨hall (by omega), halls (by omega)⟩⟩

/-- Literal texts are printed as they are. -/
theorem literal_texts (h : ∀ markup ∈ markups, Literal markup) :
    List.Forall₂ (fun markup t => Markup.text c markup = .ok t) markups ts ↔ ts = markups := by
  induction markups generalizing ts with
  | nil => exact List.forall₂_nil_left_iff
  | cons markup markups ih =>
    rw [List.forall_mem_cons] at hpictures h
    have htext := Markup.literal_text hpictures.1 h.1
    simp [List.forall₂_cons_left_iff, htext, ih hpictures.2 h.2]

end

theorem roots_shows {w : WatchedRoots} (h : ∀ root ∈ w.roots, Clean root)
    (hpictures : ∀ root ∈ w.roots, Pictureless c root) (hne : w.roots ≠ []) (out : Text) :
    ((roots w).run c).run out = .ok () (out ++ w.roots.flatMap (· ++ ("\n" : Text))) ↔
      ∀ root ∈ w.roots, Literal root ∧ Fits c.width root := by
  have hroots : roots w = w.roots.forM printLine := by
    rw [roots, if_neg (by simpa using hne)]
  rw [hroots, forM_printLine hpictures fun root hroot => clean_encodable (h root hroot),
    forall₂_and]
  constructor
  · rintro ⟨ts, hts, hout⟩
    have hprinted := List.append_cancel_left hout
    have hmarks := marks_all_printed c.width ts
    rw [← hprinted, marks_lines] at hmarks
    have hliteral := (all_literal hpictures hts).2 hmarks
    rw [(literal_texts hpictures hliteral).mp hts] at hprinted
    exact ⟨hliteral, (printed_all_fit h).mp hprinted.symm⟩
  · rintro ⟨hliteral, hfits⟩
    exact ⟨_, (literal_texts hpictures hliteral).mpr rfl,
      congrArg (out ++ ·) ((printed_all_fit h).mpr hfits).symm⟩

theorem no_roots_shows {w : WatchedRoots} (h : w.roots = []) (out : Text) :
    ((roots w).run c).run out = .ok () (out ++ ("No watched roots\n" : Text)) ↔
      Fits c.width "No watched roots" := by
  have hcolons : (("[dim]No watched roots[/dim]" : Text).all fun p => p != ':') = true := rfl
  have hcolonless : (':' : CodePoint) ∉ ("[dim]No watched roots[/dim]" : Text) :=
    fun hmem => absurd (List.all_eq_true.mp hcolons _ hmem) (by decide)
  have hunopened : (("No watched roots" : Text).all fun p => p != '[') = true := rfl
  have hliteral : LiteralBefore "[/dim]" "No watched roots" :=
    ⟨Markup.literal_of_mem fun hmem => absurd (List.all_eq_true.mp hunopened _ hmem) (by decide),
      fun _ => by decide⟩
  have hwhole : ("[dim]" : Text) ++ (("No watched roots" : Text) ++ ("[/dim]" : Text)) =
      "[dim]No watched roots[/dim]" := by decide +kernel
  have hline : ("No watched roots" : Text) ++ ("\n" : Text) = "No watched roots\n" := by
    decide +kernel
  have hclean : Clean ([] ++ (("No watched roots" : Text) ++ [])) := by
    rw [List.nil_append, List.append_nil]
    exact clean_of_all rfl
  have hempty : w.roots.isEmpty = true := by simp [h]
  have hshows := printLine_shows (c := c) around_dim
    ⟨encodable_of_all rfl, encodable_of_all rfl⟩ hclean
  rw [hwhole, List.nil_append, List.append_nil, hline] at hshows
  rw [roots, if_pos hempty, hshows (Markup.pictureless_colonless c hcolonless)]
  exact and_iff_right hliteral

end FileWatch.Report
