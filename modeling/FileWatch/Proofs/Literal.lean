import FileWatch.Proofs.Fitting
import FileWatch.Report.Markup
import Mathlib.Data.List.TakeWhile
/-!
Text that markup leaves as it is. A text is literal when it holds no tag and no backslash in front
of an opening bracket. What is shown for any other has lost a bracket or a backslash, whatever its
tags mean.
-/

namespace FileWatch.Markup

inductive TagAt : Text → Prop where
  | tag {c : CodePoint} {body rest : Text} : opensTag c = true →
      (∀ d ∈ body, d ≠ '[' ∧ d ≠ ']') → TagAt (c :: body ++ (']' :: rest : Text))

/-- No tag stands in a text, and no backslash right in front of an opening bracket. -/
def Literal (t : Text) : Prop :=
  ∀ front rest : Text, t = front ++ ('[' :: rest : Text) →
    ¬ TagAt rest ∧ front.getLast? ≠ some ('\\' : CodePoint)

/-- A text is literal, and where `s` begins with a bracket, no backslash stands at its end. -/
structure LiteralBefore (s t : Text) : Prop where
  literal : Literal t
  last : s.head? = some ('[' : CodePoint) → t.getLast? ≠ some ('\\' : CodePoint)

theorem literalBefore_nil {t : Text} : LiteralBefore [] t ↔ Literal t :=
  ⟨LiteralBefore.literal, fun h => ⟨h, fun hhead => by cases hhead⟩⟩

/-! Tags. -/

def isInside (c : CodePoint) : Bool := c != '[' && c != ']'

theorem isInside_iff {c : CodePoint} : isInside c = true ↔ c ≠ '[' ∧ c ≠ ']' := by
  simp [isInside]

theorem opensTag_inside {c : CodePoint} (h : opensTag c = true) : isInside c = true := by
  rw [isInside_iff]
  constructor <;> rintro rfl <;> revert h <;> decide

theorem tagBody_eq (t : Text) :
    tagBody? t = if ((t.takeWhile isInside).head?.map opensTag).getD false &&
      (t.dropWhile isInside).head? = some ']' then some (t.takeWhile isInside) else none := by
  have hdrop : t.drop (t.takeWhile isInside).length = t.dropWhile isInside := by
    have hleft : (t.takeWhile isInside ++ t.dropWhile isInside).drop (t.takeWhile isInside).length =
        t.dropWhile isInside := List.drop_left
    rwa [List.takeWhile_append_dropWhile] at hleft
  rw [← hdrop]
  rfl

theorem tagBody_some {t body : Text} (h : tagBody? t = some body) :
    TagAt t ∧ (∀ d ∈ body, d ≠ '[') ∧ ∃ rest, t = body ++ (']' :: rest : Text) := by
  rw [tagBody_eq] at h
  split at h
  case isFalse => cases h
  case isTrue hcond =>
    cases h
    rw [Bool.and_eq_true, decide_eq_true_eq] at hcond
    obtain ⟨hopens, hcloses⟩ := hcond
    obtain ⟨rest, hrest⟩ := List.head?_eq_some_iff.mp hcloses
    have ht := List.takeWhile_append_dropWhile (p := isInside) (l := t)
    rw [hrest] at ht
    have hinside : ∀ d ∈ t.takeWhile isInside, d ≠ '[' ∧ d ≠ ']' :=
      fun d hd => isInside_iff.mp (List.mem_takeWhile_imp hd)
    refine ⟨?_, fun d hd => (hinside d hd).1, rest, ht.symm⟩
    cases hbody : t.takeWhile isInside with
    | nil =>
      rw [hbody] at hopens
      cases hopens
    | cons c body =>
      rw [hbody] at hopens hinside ht
      rw [← ht]
      exact .tag hopens fun d hd => hinside d (.tail c hd)

theorem tagBody_at {t : Text} (h : TagAt t) : tagBody? t ≠ none := by
  obtain ⟨hopens, hbody⟩ := h
  rename_i c body rest
  have hinside : ∀ d ∈ c :: body, isInside d = true := by
    rw [List.forall_mem_cons]
    exact ⟨opensTag_inside hopens, fun d hd => isInside_iff.mpr (hbody d hd)⟩
  have hclosing : isInside ']' = false := rfl
  rw [tagBody_eq, List.takeWhile_append_of_pos hinside, List.dropWhile_append_of_pos hinside,
    List.takeWhile_cons, List.dropWhile_cons, hclosing]
  simp [hopens]

theorem tagBody_none {t : Text} : tagBody? t = none ↔ ¬ TagAt t := by
  constructor
  · exact fun h ht => tagBody_at ht h
  · intro h
    cases hbody : tagBody? t with
    | none => rfl
    | some body => exact absurd (tagBody_some hbody).1 h

def OpensFirst (s : Text) : Prop :=
  ∀ front rest : Text, s = front ++ (']' :: rest : Text) → ('[' : CodePoint) ∈ front

theorem closes_before {s : Text} (hs : OpensFirst s) {t body rest : Text}
    (hbody : ∀ d ∈ body, d ≠ '[') (h : t ++ s = body ++ (']' :: rest : Text)) :
    ∃ more, t = body ++ (']' :: more : Text) := by
  rcases List.append_eq_append_iff.mp h with ⟨more, rfl, hclosing⟩ | ⟨more, rfl, hclosing⟩
  · have hmem := hs more rest hclosing
    exact absurd rfl (hbody _ (List.mem_append_right _ hmem))
  · cases more with
    | nil => exact absurd (hs [] rest hclosing.symm) List.not_mem_nil
    | cons d more =>
      cases hclosing
      exact ⟨more, rfl⟩

/-- A tag does not go on into a text that opens first. -/
theorem tagAt_append {s : Text} (hs : OpensFirst s) {t : Text} : TagAt (t ++ s) ↔ TagAt t := by
  constructor
  · intro h
    generalize hwhole : t ++ s = whole at h
    obtain ⟨hopens, hbody⟩ := h
    rename_i c body rest
    have hinside : ∀ d ∈ c :: body, d ≠ '[' := by
      rw [List.forall_mem_cons]
      exact ⟨(isInside_iff.mp (opensTag_inside hopens)).1, fun d hd => (hbody d hd).1⟩
    obtain ⟨more, rfl⟩ := closes_before hs hinside hwhole
    exact .tag hopens hbody
  · rintro ⟨hopens, hbody⟩
    rw [List.append_assoc]
    exact .tag hopens hbody

/-! Literal text. -/

theorem last_behind {c : CodePoint} (hc : c ≠ '\\') (front t : Text) :
    (front ++ (c :: t : Text)).getLast? = some ('\\' : CodePoint) ↔
      t.getLast? = some ('\\' : CodePoint) := by
  rw [List.getLast?_append, List.getLast?_cons]
  cases t.getLast? with
  | none => simpa using hc
  | some d => rfl

theorem literal_of_mem {t : Text} (h : ('[' : CodePoint) ∉ t) : Literal t := by
  rintro front rest rfl
  exact absurd (by simp) h

theorem literal_suffix {front t : Text} (h : Literal (front ++ t)) : Literal t := by
  intro f rest ht
  obtain ⟨htag, hslash⟩ := h (front ++ f) rest (by rw [ht, List.append_assoc])
  refine ⟨htag, fun hlast => hslash ?_⟩
  rw [List.getLast?_append, hlast]
  rfl

/-- What holds neither an opening bracket nor a backslash makes no difference in front. -/
theorem literal_append {front : Text} (h : ∀ c ∈ front, c ≠ '[' ∧ c ≠ '\\') (t : Text) :
    Literal (front ++ t) ↔ Literal t := by
  have hlast : front.getLast? ≠ some ('\\' : CodePoint) :=
    fun hlast => (h _ (List.mem_of_getLast? hlast)).2 rfl
  refine ⟨literal_suffix, fun ht f rest hsplit => ?_⟩
  rcases List.append_eq_append_iff.mp hsplit with ⟨more, rfl, hmore⟩ | ⟨more, rfl, hmore⟩
  · obtain ⟨htag, hslash⟩ := ht more rest hmore
    refine ⟨htag, ?_⟩
    rw [List.getLast?_append]
    cases hend : more.getLast? with
    | none => exact hlast
    | some c =>
      rw [hend] at hslash
      exact hslash
  · cases more with
    | nil =>
      rw [List.append_nil] at hlast
      exact ⟨(ht [] rest hmore.symm).1, hlast⟩
    | cons c more =>
      cases hmore
      exact absurd rfl (h '[' (by simp)).1

theorem last_append {front : Text} (h : ∀ c ∈ front, c ≠ '[' ∧ c ≠ '\\') (t : Text) :
    (front ++ t).getLast? = some ('\\' : CodePoint) ↔ t.getLast? = some ('\\' : CodePoint) := by
  rw [List.getLast?_append]
  cases t.getLast? with
  | none => exact iff_of_false (fun hlast => (h _ (List.mem_of_getLast? hlast)).2 rfl) nofun
  | some d => rfl

theorem literalBefore_append {front : Text} (h : ∀ c ∈ front, c ≠ '[' ∧ c ≠ '\\') {s t : Text} :
    LiteralBefore s (front ++ t) ↔ LiteralBefore s t := by
  constructor
  · rintro ⟨hliteral, hlast⟩
    exact ⟨(literal_append h t).mp hliteral, fun hhead => mt (last_append h t).mpr (hlast hhead)⟩
  · rintro ⟨hliteral, hlast⟩
    exact ⟨(literal_append h t).mpr hliteral, fun hhead => mt (last_append h t).mp (hlast hhead)⟩

/-- A code point that is no mark makes no difference behind what holds no bracket. -/
theorem literal_behind {c : CodePoint} (hslash : c ≠ '\\') (hbracket : c ≠ '[') {front t : Text}
    (hfront : ('[' : CodePoint) ∉ front) (ht : Literal t) : Literal (front ++ (c :: t : Text)) := by
  intro f rest hsplit
  rcases List.append_eq_append_iff.mp hsplit with ⟨more, rfl, hmore⟩ | ⟨more, rfl, hmore⟩
  · cases more with
    | nil =>
      cases hmore
      exact absurd rfl hbracket
    | cons d more =>
      cases hmore
      obtain ⟨htag, hlast⟩ := ht more rest rfl
      exact ⟨htag, mt (last_behind hslash front more).mp hlast⟩
  · cases more with
    | nil =>
      cases hmore
      exact absurd rfl hbracket
    | cons d more =>
      cases hmore
      exact absurd (by simp) hfront

theorem literal_opened {t : Text} (htag : ¬ TagAt t) (ht : Literal t) :
    Literal ('[' :: t : Text) := by
  intro front rest hsplit
  cases front with
  | nil =>
    cases hsplit
    exact ⟨htag, nofun⟩
  | cons c front =>
    cases hsplit
    obtain ⟨htag, hlast⟩ := ht front rest rfl
    exact ⟨htag, mt (last_behind (by decide) [] front).mp hlast⟩

def plains (pieces : List Piece) : Text := pieces.filterMap Piece.plain?

theorem plains_append (ps qs : List Piece) : plains (ps ++ qs) = plains ps ++ plains qs :=
  List.filterMap_append

theorem plains_plain (t : Text) : plains (t.map .plain) = t := by
  rw [plains, List.filterMap_map]
  exact List.filterMap_some

def slashes (n : Nat) : Text := List.replicate n '\\'

theorem slashes_plain (n : Nat) :
    (slashes n).map Piece.plain = List.replicate n (.plain '\\') := List.map_replicate

theorem slashes_cons (n : Nat) (t : Text) :
    slashes n ++ ('\\' :: t : Text) = slashes (n + 1) ++ t := by
  rw [slashes, slashes, List.replicate_succ', List.append_assoc]
  rfl

theorem bracket_slashes (n : Nat) : ('[' : CodePoint) ∉ slashes n :=
  fun h => absurd (List.eq_of_mem_replicate h) (by decide)

theorem slashes_last (n : Nat) : (slashes (n + 1)).getLast? = some ('\\' : CodePoint) := by
  rw [slashes, List.replicate_succ', List.getLast?_concat]

/-! The pieces of a text, by what it begins with. -/

theorem pieces_slash (position n : Nat) (t : Text) :
    piecesFrom position 0 n ('\\' :: t) = piecesFrom (position + 1) 0 (n + 1) t := rfl

theorem pieces_skip (position skip n : Nat) (c : CodePoint) (t : Text) :
    piecesFrom position (skip + 1) n (c :: t) = piecesFrom (position + 1) skip 0 t := rfl

theorem pieces_tag (position n : Nat) {t body : Text} (h : tagBody? t = some body) :
    piecesFrom position 0 n ('[' :: t) = List.replicate (n / 2) (.plain '\\') ++
      if n % 2 = 0 then
        .tag position (Tag.ofBody body) :: piecesFrom (position + 1) (body.length + 1) 0 t
      else .plain '[' :: piecesFrom (position + 1) 0 0 t := by
  rw [piecesFrom, if_neg (by decide), if_pos rfl, h]

theorem pieces_bracket (position n : Nat) {t : Text} (h : ¬ TagAt t) :
    piecesFrom position 0 n ('[' :: t) =
      List.replicate (n - 1) (.plain '\\') ++ .plain '[' :: piecesFrom (position + 1) 0 0 t := by
  rw [piecesFrom, if_neg (by decide), if_pos rfl, tagBody_none.mpr h]

theorem pieces_other (position n : Nat) {c : CodePoint} (hslash : c ≠ '\\') (hbracket : c ≠ '[')
    (t : Text) : piecesFrom position 0 n (c :: t) =
      List.replicate n (.plain '\\') ++ .plain c :: piecesFrom (position + 1) 0 0 t := by
  rw [piecesFrom, if_neg hslash, if_neg hbracket]

/-! Literal text is shown as it is. -/

/-- No backslash stands in front of a bracket in literal text. -/
theorem literal_bracket {n : Nat} {t : Text} (h : Literal (slashes n ++ ('[' :: t : Text))) :
    n = 0 ∧ ¬ TagAt t := by
  obtain ⟨htag, hslash⟩ := h (slashes n) t rfl
  cases n with
  | zero => exact ⟨rfl, htag⟩
  | succ n => exact absurd (slashes_last n) hslash

/-- Literal text is shown code point by code point, whatever follows it, unless that opens a bracket
right behind a backslash. -/
theorem pieces_literal {s : Text} (hs : OpensFirst s) (hslash : s.head? ≠ some ('\\' : CodePoint))
    {t : Text} (position n : Nat) (h : LiteralBefore s (slashes n ++ t)) :
    piecesFrom position 0 n (t ++ s) =
      (slashes n ++ t).map .plain ++ piecesFrom (position + t.length) 0 0 s := by
  induction t generalizing position n with
  | nil =>
    rw [List.append_nil] at h ⊢
    rw [List.nil_append, slashes_plain]
    cases s with
    | nil => simp [piecesFrom]
    | cons d s =>
      have hd : d ≠ '\\' := fun hd => hslash (congrArg some hd)
      by_cases hbracket : d = '['
      · cases n with
        | zero => rfl
        | succ n => exact absurd (slashes_last n) (h.last (congrArg some hbracket))
      · rw [pieces_other _ _ hd hbracket, pieces_other _ _ hd hbracket]
        rfl
  | cons c t ih =>
    have hlength : position + (c :: t).length = position + 1 + t.length := by
      rw [List.length_cons]
      omega
    rw [hlength, List.cons_append]
    by_cases hc : c = '\\'
    · subst hc
      rw [slashes_cons] at h ⊢
      rw [pieces_slash, ih (position + 1) (n + 1) h]
    have hrest : LiteralBefore s (slashes 0 ++ t) := by
      constructor
      · have hsplit : slashes n ++ c :: t = (slashes n ++ [c]) ++ t := by simp
        have hliteral := h.literal
        rw [hsplit] at hliteral
        exact literal_suffix hliteral
      · exact fun hhead hlast => h.last hhead ((last_behind hc (slashes n) t).mpr hlast)
    have hshown := ih (position + 1) 0 hrest
    rw [List.map_append, slashes_plain, List.map_cons]
    by_cases hbracket : c = '['
    · subst hbracket
      obtain ⟨rfl, htag⟩ := literal_bracket h.literal
      rw [pieces_bracket _ _ (mt (tagAt_append hs).mp htag), hshown]
      rfl
    · rw [pieces_other _ _ hc hbracket, hshown]
      simp [slashes]

/-! What is shown of other text. -/

/-- A backslash counts two and an opening bracket one, so that a backslash that is lost is not made
up for by a bracket that is shown in its place. -/
def mark (c : CodePoint) : Nat := if c = '\\' then 2 else if c = '[' then 1 else 0

def marks (t : Text) : Nat := Text.total mark t

theorem marks_cons (c : CodePoint) (t : Text) : marks (c :: t) = mark c + marks t := rfl

theorem marks_append (t u : Text) : marks (t ++ u) = marks t + marks u :=
  Text.total_append mark t u

theorem marks_shown_slashes (n : Nat) (ps : List Piece) :
    marks (plains (List.replicate n (.plain '\\') ++ ps)) = 2 * n + marks (plains ps) := by
  rw [← slashes_plain, plains_append, plains_plain, marks_append, slashes, marks, Text.total,
    List.map_replicate, List.sum_replicate]
  change n * 2 + _ = _
  omega

theorem marks_plain (c : CodePoint) (ps : List Piece) :
    marks (plains (.plain c :: ps)) = mark c + marks (plains ps) := rfl

theorem marks_tag (position : Nat) (t : Tag) (ps : List Piece) :
    marks (plains (.tag position t :: ps)) = marks (plains ps) := rfl

structure Behind (s : Text) : Prop where
  opens : OpensFirst s
  head : s.head? ≠ some ('\\' : CodePoint)
  marks_le : ∀ position n, marks (plains (piecesFrom position 0 n s)) ≤ 2 * n
  loses : s.head? = some ('[' : CodePoint) → ∀ position n,
    marks (plains (piecesFrom position 0 (n + 1) s)) < 2 * (n + 1)

/-- Of `t` behind `n` backslashes and in front of `s`, `shown` marks are shown: none are added, and
none are lost only where the text is literal. -/
structure Keeps (s t : Text) (n shown : Nat) : Prop where
  most : shown ≤ 2 * n + marks t
  all : shown = 2 * n + marks t → LiteralBefore s (slashes n ++ t)

theorem Keeps.lost {s t : Text} {n shown : Nat} (h : shown < 2 * n + marks t) : Keeps s t n shown :=
  ⟨Nat.le_of_lt h, fun hall => absurd hall (Nat.ne_of_lt h)⟩

theorem keeps_slash {s t : Text} {n shown : Nat} (h : Keeps s t (n + 1) shown) :
    Keeps s ('\\' :: t) n shown := by
  have hmarks : 2 * n + marks ('\\' :: t) = 2 * (n + 1) + marks t := by
    have hmark : mark '\\' = 2 := rfl
    rw [marks_cons, hmark]
    omega
  obtain ⟨hmost, hall⟩ := h
  rw [← slashes_cons, ← hmarks] at *
  exact ⟨hmost, hall⟩

theorem keeps_bracket {s t : Text} {shown : Nat} (htag : ¬ TagAt t) (h : Keeps s t 0 shown)
    (n : Nat) : Keeps s ('[' :: t) n (2 * (n - 1) + (1 + shown)) := by
  have hmarks : marks ('[' :: t) = 1 + marks t := rfl
  have hmost := h.most
  cases n with
  | zero =>
    refine ⟨by omega, fun hall => ?_⟩
    obtain ⟨hliteral, hlast⟩ := h.all (by omega)
    exact ⟨literal_opened htag hliteral,
      fun hhead => mt (last_behind (by decide) (slashes 0) t).mp (hlast hhead)⟩
  | succ n => exact .lost (by omega)

theorem keeps_other {s t : Text} {shown : Nat} {c : CodePoint} (hslash : c ≠ '\\')
    (hbracket : c ≠ '[') (h : Keeps s t 0 shown) (n : Nat) :
    Keeps s (c :: t) n (2 * n + shown) := by
  have hmarks : marks (c :: t) = marks t := by
    rw [marks_cons, mark, if_neg hslash, if_neg hbracket, Nat.zero_add]
  have hmost := h.most
  refine ⟨by omega, fun hall => ?_⟩
  obtain ⟨hliteral, hlast⟩ := h.all (by omega)
  exact ⟨literal_behind hslash hbracket (bracket_slashes n) hliteral,
    fun hhead => mt (last_behind hslash (slashes n) t).mp (hlast hhead)⟩

section

variable {s : Text} (hs : Behind s)

include hs

theorem keeps_nil (position n : Nat) :
    Keeps s [] n (marks (plains (piecesFrom position 0 n s))) := by
  refine ⟨hs.marks_le position n, fun hall => ⟨?_, fun hhead => ?_⟩⟩
  · rw [List.append_nil]
    exact literal_of_mem (bracket_slashes n)
  · cases n with
    | zero => exact nofun
    | succ n => exact absurd hall (Nat.ne_of_lt (hs.loses hhead position n))

/-- A tag is lost, or it is shown for a backslash that is lost. -/
theorem tag_loses {t body : Text} (h : tagBody? (t ++ s) = some body)
    (hskipped : ∀ position skip, skip ≤ t.length →
      marks (plains (piecesFrom position skip 0 (t ++ s))) ≤ marks t) (position n : Nat) :
    marks (plains (piecesFrom position 0 n ('[' :: (t ++ s)))) ≤ n + marks t := by
  obtain ⟨-, hinside, rest, hrest⟩ := tagBody_some h
  obtain ⟨more, hmore⟩ := closes_before hs.opens hinside hrest
  have hlength : body.length + 1 ≤ t.length := by
    rw [hmore, List.length_append, List.length_cons]
    omega
  have hvanished := hskipped (position + 1) (body.length + 1) hlength
  have hshown := hskipped (position + 1) 0 (Nat.zero_le _)
  have hmark : mark '[' = 1 := rfl
  rw [pieces_tag position n h, marks_shown_slashes]
  split
  case isTrue =>
    rw [marks_tag]
    omega
  case isFalse =>
    rw [marks_plain, hmark]
    omega

/-- The second part says it of a text whose beginning belongs to a tag. -/
theorem shown_keeps (t : Text) :
    (∀ position n, Keeps s t n (marks (plains (piecesFrom position 0 n (t ++ s))))) ∧
    ∀ position skip, skip ≤ t.length →
      marks (plains (piecesFrom position skip 0 (t ++ s))) ≤ marks t := by
  induction t with
  | nil =>
    refine ⟨keeps_nil hs, fun position skip hskip => ?_⟩
    cases Nat.le_zero.mp hskip
    exact hs.marks_le position 0
  | cons c t ih =>
    obtain ⟨hkeeps, hskipped⟩ := ih
    have hcons (position n : Nat) :
        Keeps s (c :: t) n (marks (plains (piecesFrom position 0 n (c :: (t ++ s))))) := by
      by_cases hslash : c = '\\'
      · subst hslash
        exact keeps_slash (hkeeps (position + 1) (n + 1))
      have hrest := hkeeps (position + 1) 0
      by_cases hbracket : c = '['
      · subst hbracket
        cases hbody : tagBody? (t ++ s) with
        | some body =>
          have hloses := tag_loses hs hbody hskipped position n
          have hmarks : marks ('[' :: t) = 1 + marks t := rfl
          exact .lost (by omega)
        | none =>
          have htag := tagBody_none.mp hbody
          rw [pieces_bracket position n htag, marks_shown_slashes]
          exact keeps_bracket (mt (tagAt_append hs.opens).mpr htag) hrest n
      · have hmark : mark c = 0 := by rw [mark, if_neg hslash, if_neg hbracket]
        rw [pieces_other position n hslash hbracket, marks_shown_slashes, marks_plain, hmark,
          Nat.zero_add]
        exact keeps_other hslash hbracket hrest n
    refine ⟨hcons, fun position skip hskip => ?_⟩
    cases skip with
    | zero =>
      have hmost := (hcons position 0).most
      rwa [Nat.mul_zero, Nat.zero_add] at hmost
    | succ skip =>
      have hle := hskipped (position + 1) skip (Nat.le_of_succ_le_succ hskip)
      rw [List.cons_append, pieces_skip, marks_cons]
      omega

end

/-! What stands behind text in reports. -/

theorem behind_nil : Behind [] := by
  constructor
  · rintro front rest h
    exact absurd (congrArg List.length h) (by simp)
  · exact nofun
  · intro position n
    have hmarks := marks_shown_slashes n []
    rw [List.append_nil] at hmarks
    exact Nat.le_of_eq hmarks
  · exact nofun

theorem behind_tag {t body : Text} (hbody : tagBody? t = some body) (ht : marks t = 0) :
    Behind ('[' :: t) := by
  have hshown (position n : Nat) : marks (plains (piecesFrom position 0 n ('[' :: t))) ≤ n := by
    have htag : tagBody? (t ++ []) = some body := by rwa [List.append_nil]
    have hlost := tag_loses behind_nil htag (shown_keeps behind_nil t).2 position n
    rwa [List.append_nil, ht] at hlost
  constructor
  · intro front rest h
    cases front with
    | nil => cases h
    | cons c front =>
      cases h
      exact List.mem_cons_self
  · exact nofun
  · intro position n
    have hle := hshown position n
    omega
  · intro _ position n
    have hle := hshown position (n + 1)
    omega

theorem behind_cons {c : CodePoint} (hslash : c ≠ '\\') (hopens : c ≠ '[') (hcloses : c ≠ ']')
    {s : Text} (hs : Behind s) : Behind (c :: s) := by
  have hmark : mark c = 0 := by rw [mark, if_neg hslash, if_neg hopens]
  constructor
  · intro front rest h
    cases front with
    | nil =>
      cases h
      exact absurd rfl hcloses
    | cons d front =>
      cases h
      exact List.mem_cons_of_mem _ (hs.opens front rest rfl)
  · intro h
    exact hslash (Option.some.inj h)
  · intro position n
    have hle := hs.marks_le (position + 1) 0
    rw [pieces_other position n hslash hopens, marks_shown_slashes, marks_plain, hmark]
    omega
  · intro h
    exact absurd (Option.some.inj h) hopens

theorem behind_append {front : Text} (h : ∀ c ∈ front, c ≠ '\\' ∧ c ≠ '[' ∧ c ≠ ']') {s : Text}
    (hs : Behind s) : Behind (front ++ s) := by
  induction front with
  | nil => exact hs
  | cons c front ih =>
    rw [List.forall_mem_cons] at h
    obtain ⟨⟨hslash, hopens, hcloses⟩, hrest⟩ := h
    exact behind_cons hslash hopens hcloses (ih hrest)

/-! What is printed. -/

def Pictureless (c : Console) (markup : Text) : Prop :=
  c.pictured markup (plains (pieces markup)) = plains (pieces markup)

/-- Nothing but backslashes is shown that does not stand in markup. -/
theorem plain_mem {d : CodePoint} (hslash : d ≠ '\\') {position skip backslashes : Nat} {t : Text}
    (h : .plain d ∈ piecesFrom position skip backslashes t) : d ∈ t := by
  have hslashes (n : Nat) : .plain d ∉ List.replicate n (Piece.plain '\\') := by
    simp [List.mem_replicate, hslash]
  induction position, skip, backslashes, t using piecesFrom.induct with
  | case1 position skip n => exact absurd h (hslashes n)
  | case2 position n c rest skip ih => exact .tail c (ih h)
  | case3 position n rest ih => exact .tail _ (ih h)
  | case4 position n rest body hbody _ ih ih' =>
    rw [pieces_tag position n hbody, List.mem_append] at h
    rcases h with h | h
    · exact absurd h (hslashes _)
    · split at h
      · exact .tail _ (ih ((List.mem_cons.mp h).resolve_left nofun))
      · rcases List.mem_cons.mp h with h | h
        · cases h
          exact .head _
        · exact .tail _ (ih' h)
  | case5 position n rest hbody _ ih =>
    rw [pieces_bracket position n (tagBody_none.mp hbody), List.mem_append, List.mem_cons] at h
    rcases h with h | h | h
    · exact absurd h (hslashes _)
    · cases h
      exact .head _
    · exact .tail _ (ih h)
  | case6 position n c rest hc hbracket ih =>
    rw [pieces_other position n hc hbracket, List.mem_append, List.mem_cons] at h
    rcases h with h | h | h
    · exact absurd h (hslashes _)
    · cases h
      exact .head _
    · exact .tail _ (ih h)

theorem plains_mem {d : CodePoint} (hslash : d ≠ '\\') {markup : Text}
    (h : d ∈ plains (pieces markup)) : d ∈ markup := by
  obtain ⟨piece, hpiece, hplain⟩ := List.mem_filterMap.mp h
  cases piece with
  | plain e =>
    cases hplain
    exact plain_mem hslash hpiece
  | tag => cases hplain

/-- Pictures have their codes between colons. -/
theorem pictureless_colonless (c : Console) {markup : Text} (h : (':' : CodePoint) ∉ markup) :
    Pictureless c markup := by
  refine c.pictured_colonless markup _ fun d hd => ?_
  rintro rfl
  exact h (plains_mem (by decide) hd)

theorem text_plains {c : Console} {markup t : Text} (hpictures : Pictureless c markup)
    (h : text c markup = .ok t) : t = plains (pieces markup) := by
  unfold text at h
  cases hfault : fault? c markup with
  | some e =>
    rw [hfault] at h
    cases h
  | none =>
    rw [hfault] at h
    simp only [bind, Except.bind, pure, Except.pure] at h
    split at h
    · cases h
    · cases h
      exact hpictures

theorem fault_none {c : Console} {markup : Text}
    (h : ∀ p ∈ (pieces markup).filterMap Piece.tag?, p.2.isInvolved = false) :
    fault? c markup = none := by
  have hany : ((pieces markup).filterMap Piece.tag?).any (·.2.isInvolved) = false := by
    rw [List.any_eq_false]
    intro p hp
    rw [h p hp]
    exact Bool.false_ne_true
  rw [fault?, hany]
  rfl

/-- What stands around a text in markup: `front` is printed as `before` and `s` as `after`, neither
with a mark, and every tag in them is the name of a style or closes one that is open. -/
structure Around (front before s after : Text) : Prop where
  begins : ∀ t, pieces (front ++ t) = pieces front ++ piecesFrom front.length 0 0 t
  behind : Behind s
  shownBefore : plains (pieces front) = before
  shownAfter : ∀ position, plains (piecesFrom position 0 0 s) = after
  unmarked : marks before = 0 ∧ marks after = 0
  tags : ∀ position,
    ((pieces front ++ piecesFrom position 0 0 s).filterMap Piece.tag?).foldlM follow [] = .ok []
  simple : ∀ position, ∀ p ∈ (pieces front ++ piecesFrom position 0 0 s).filterMap Piece.tag?,
    p.2.isInvolved = false

section

variable {c : Console} {front before s after t : Text} (h : Around front before s after)
  (hpictures : Pictureless c (front ++ (t ++ s)))

include h hpictures

/-- What is printed has all marks of a text in it only if that is literal. -/
theorem text_marks {shown : Text} (htext : text c (front ++ (t ++ s)) = .ok shown) :
    Keeps s t 0 (marks shown) := by
  rw [text_plains hpictures htext, h.begins, plains_append, marks_append, h.shownBefore,
    h.unmarked.1, Nat.zero_add]
  exact (shown_keeps h.behind t).1 front.length 0

theorem text_literal (ht : LiteralBefore s t) :
    text c (front ++ (t ++ s)) = .ok (before ++ (t ++ after)) := by
  have hpieces := pieces_literal h.behind.opens h.behind.head front.length 0 ht
  have hparts : pieces (front ++ (t ++ s)) =
      pieces front ++ (t.map .plain ++ piecesFrom (front.length + t.length) 0 0 s) := by
    rw [h.begins, hpieces]
    rfl
  have hplain : (t.map Piece.plain).filterMap Piece.tag? = [] := by
    rw [List.filterMap_map]
    exact List.filterMap_none t
  have htags : (pieces (front ++ (t ++ s))).filterMap Piece.tag? =
      (pieces front ++ piecesFrom (front.length + t.length) 0 0 s).filterMap Piece.tag? := by
    rw [hparts, List.filterMap_append, List.filterMap_append, hplain, List.nil_append,
      ← List.filterMap_append]
  have hfault : fault? c (front ++ (t ++ s)) = none := by
    apply fault_none
    rw [htags]
    exact h.simple _
  have hclosed := h.tags (front.length + t.length)
  have hshown : plains (pieces (front ++ (t ++ s))) = before ++ (t ++ after) := by
    rw [hparts, plains_append, plains_append, plains_plain, h.shownBefore, h.shownAfter]
  unfold text
  dsimp only
  rw [hfault, htags, hclosed]
  exact congrArg Except.ok (hpictures.trans hshown)

end

theorem around_nothing : Around [] [] [] [] :=
  ⟨fun _ => rfl, behind_nil, rfl, fun _ => rfl, ⟨rfl, rfl⟩, fun _ => rfl, fun _ => nofun⟩

section

variable {c : Console} {t : Text} (hpictures : Pictureless c t)

include hpictures

/-- A text that is printed has marks lost unless it is literal. -/
theorem text_keeps {shown : Text} (h : text c t = .ok shown) :
    marks shown ≤ marks t ∧ (marks t ≤ marks shown → Literal t) := by
  have hnone : [] ++ (t ++ []) = t := by rw [List.nil_append, List.append_nil]
  obtain ⟨hmost, hall⟩ := text_marks around_nothing (hnone.symm ▸ hpictures) (hnone.symm ▸ h)
  exact ⟨by omega, fun hle => (hall (by omega)).literal⟩

theorem literal_text (h : Literal t) : text c t = .ok t := by
  have hnone : [] ++ (t ++ []) = t := by rw [List.nil_append, List.append_nil]
  have htext := text_literal around_nothing (hnone.symm ▸ hpictures) (literalBefore_nil.mpr h)
  rwa [List.nil_append, List.append_nil] at htext

end

theorem literal_iff {t : Text} : plains (pieces t) = t ↔ Literal t := by
  constructor
  · intro h
    have hkeeps := (shown_keeps behind_nil t).1 0 0
    rw [List.append_nil, ← pieces, h] at hkeeps
    exact (hkeeps.all (by omega)).literal
  · intro h
    exact (text_plains (c := {}) rfl (literal_text rfl h)).symm

instance (t : Text) : Decidable (Literal t) := decidable_of_iff _ literal_iff

example : Literal "/a[1]" ∧ ¬ Literal "/a[b]" := by decide +kernel

theorem follow_pair {name normal : Text} (hnormal : Style.normalName name = .ok normal)
    (hopens : Tag.closes? ⟨name, none⟩ = none)
    (hcloses : Tag.closes? ⟨'/' :: name, none⟩ = some name) (hne : name ≠ [])
    (position last : Nat) :
    [(position, ⟨name, none⟩), (last, ⟨'/' :: name, none⟩)].foldlM follow [] = .ok [] := by
  have hopened : follow [] (position, ⟨name, none⟩) = .ok [normal] := by
    unfold follow
    dsimp only
    rw [hopens, hnormal]
    rfl
  have hclosed : follow [normal] (last, ⟨'/' :: name, none⟩) = .ok [] := by
    unfold follow
    dsimp only
    rw [hcloses]
    cases name with
    | nil => exact absurd rfl hne
    | cons c name =>
      dsimp only
      rw [hnormal]
      simp [Except.mapError, bind, Except.bind, pure, Except.pure]
  rw [List.foldlM_cons, hopened]
  change ([(last, _)] : List (Nat × Tag)).foldlM follow [normal] = _
  rw [List.foldlM_cons, hclosed]
  rfl

/-- A style by its name alone, opened and closed, calls for nothing else. -/
theorem pair_simple {name : Text} (hstyle : Tag.isStyle ⟨name, none⟩ = true)
    (hcloses : Tag.closes? ⟨'/' :: name, none⟩ = some name) (position last : Nat) :
    ∀ t ∈ [(position, (⟨name, none⟩ : Tag)), (last, ⟨'/' :: name, none⟩)],
      t.2.isInvolved = false := by
  refine List.forall_mem_cons.mpr ⟨?_, List.forall_mem_singleton.mpr ?_⟩
  · rw [Tag.isInvolved, hstyle, Bool.not_true, Bool.and_false]
  · rw [Tag.isInvolved, hcloses]
    rfl

end FileWatch.Markup
