import FileWatch.Json.Decode
import FileWatch.Text.Blank
import Mathlib.Data.List.TakeWhile
/-!
The grammar of documents, stated on texts alone: `Spells s p` says that the text `s` is, from its
first to its last code point, the part `p` of a document. It knows nothing of how a text is read.
-/

namespace FileWatch.Json

def Spaces (w : Text) : Prop := ∀ c ∈ w, isSpace c = true

/-- The text goes on with the escape of a low surrogate, which joins a high one in front of it. -/
def LowSurrogateAhead (s : Text) : Prop :=
  ∃ e f g h low more, s = ('\\' :: 'u' :: e :: f :: g :: h :: more : Text) ∧
    hexQuad? e f g h = some low ∧ low.isLowSurrogate = true

inductive Characters : Text → Text → Prop where
  | nil : Characters [] []
  | plain {c : CodePoint} {s t} : 0x20 ≤ c.val → c ≠ '"' → c ≠ '\\' → Characters s t →
      Characters (c :: s) (c :: t)
  | simple {letter point s t} : simpleEscape? letter = some point → Characters s t →
      Characters ('\\' :: letter :: s) (point :: t)
  | unicode {a b c d point s t} : hexQuad? a b c d = some point →
      ¬ (point.isHighSurrogate = true ∧ LowSurrogateAhead s) → Characters s t →
      Characters ('\\' :: 'u' :: a :: b :: c :: d :: s) (point :: t)
  | pair {a b c d e f g h high low s t} : hexQuad? a b c d = some high →
      high.isHighSurrogate = true → hexQuad? e f g h = some low →
      low.isLowSurrogate = true → Characters s t →
      Characters ('\\' :: 'u' :: a :: b :: c :: d :: '\\' :: 'u' :: e :: f :: g :: h :: s)
        (joinSurrogates high low :: t)

def Digits (s : Text) : Prop := s ≠ [] ∧ ∀ c ∈ s, c.isAsciiDigit = true

def Whole (s : Text) : Prop := s = (['0'] : Text) ∨ (Digits s ∧ s.head? ≠ some ('0' : CodePoint))

inductive Fraction : Text → Text → Prop where
  | absent : Fraction [] []
  | present {ds} : Digits ds → Fraction ('.' :: ds) ds

inductive Sign : Text → Bool → Prop where
  | absent : Sign [] false
  | plus : Sign ['+'] false
  | minus : Sign ['-'] true

def signed (negative : Bool) (digits : Text) : Int :=
  if negative then -(Numeral.digitsValue digits : Int) else Numeral.digitsValue digits

inductive Exponent : Text → Option Int → Prop where
  | absent : Exponent [] none
  | present {mark sign negative ds} : Binary64.isExponentMark mark = true →
      Sign sign negative → Digits ds →
      Exponent (mark :: (sign ++ ds)) (some (signed negative ds))

/-- A number after its sign. Without fraction and exponent it is an integer, whose digits are
limited; the digits of the others are not. -/
inductive Unsigned (negative : Bool) : Text → Value → Prop where
  | integer {whole} : Whole whole → whole.length ≤ Numeral.digitLimit →
      Unsigned negative whole (.int (signed negative whole))
  | real {whole fraction places exponent power?} : Whole whole → Fraction fraction places →
      Exponent exponent power? → places ≠ [] ∨ power?.isSome = true →
      Unsigned negative (whole ++ (fraction ++ exponent)) (.float (Binary64.ofDecimal negative
        (Numeral.digitsValue (whole ++ places)) (power?.getD 0 - places.length)))

inductive Number : Text → Value → Prop where
  | positive {s v} : Unsigned false s v → Number s v
  | negative {s v} : Unsigned true s v → Number ('-' :: s) v

/-- The parts of a document. The items of an array come with its closing bracket, the members of
an object with its closing brace. -/
inductive Part where
  | value (v : Value)
  | items (vs : List Value)
  | member (key : Text) (v : Value)
  | members (ms : List (Text × Value))

inductive Spells : Text → Part → Prop where
  | word {w v} : (w, v) ∈ words → Spells (Text.ofString w) (.value v)
  | number {s v} : Number s v → Spells s (.value v)
  | string {s t} : Characters s t → Spells ('"' :: (s ++ (['"'] : Text))) (.value (.text t))
  | emptyList {w} : Spaces w → Spells ('[' :: (w ++ ([']'] : Text))) (.value (.list []))
  | list {w s vs} : Spaces w → Spells s (.items vs) →
      Spells ('[' :: (w ++ s)) (.value (.list vs))
  | emptyDict {w} : Spaces w → Spells ('\x7b' :: (w ++ (['\x7d'] : Text))) (.value (.dict []))
  | dict {w s ms} : Spaces w → Spells s (.members ms) →
      Spells ('\x7b' :: (w ++ s)) (.value (.dict (collect ms)))
  | lastItem {s v w} : Spells s (.value v) → Spaces w →
      Spells (s ++ (w ++ ([']'] : Text))) (.items [v])
  | item {s v w w' s' vs} : Spells s (.value v) → Spaces w → Spaces w' →
      Spells s' (.items vs) → Spells (s ++ (w ++ (',' :: (w' ++ s') : Text))) (.items (v :: vs))
  | member {k key w w' s v} : Characters k key → Spaces w → Spaces w' → Spells s (.value v) →
      Spells ('"' :: (k ++ ('"' :: (w ++ (':' :: (w' ++ s) : Text)) : Text))) (.member key v)
  | lastMember {s key v w} : Spells s (.member key v) → Spaces w →
      Spells (s ++ (w ++ (['\x7d'] : Text))) (.members [(key, v)])
  | moreMembers {s key v w w' s' ms} : Spells s (.member key v) → Spaces w → Spaces w' →
      Spells s' (.members ms) →
      Spells (s ++ (w ++ (',' :: (w' ++ s') : Text))) (.members ((key, v) :: ms))

def Document (s : Text) (v : Value) : Prop := Spells s (.value v)

structure ElementRules {α : Type} (part : α → Part) (parts : List α → Part) (close : CodePoint) :
    Prop where
  closing : close = ']' ∨ close = '\x7d'
  last {s a w} : Spells s (part a) → Spaces w → Spells (s ++ (w ++ [close])) (parts [a])
  more {s a w w' s' as} : Spells s (part a) → Spaces w → Spaces w' → Spells s' (parts as) →
    Spells (s ++ (w ++ (',' :: (w' ++ s') : Text))) (parts (a :: as))

structure ContainerRules {α : Type} (parts : α → Part) (opening close : CodePoint) (empty : Value)
    (build : α → Value) : Prop where
  closing : close = ']' ∨ close = '\x7d'
  none {w} : Spaces w → Spells (opening :: (w ++ [close])) (.value empty)
  some {w s a} : Spaces w → Spells s (parts a) → Spells (opening :: (w ++ s)) (.value (build a))

theorem item_rules : ElementRules .value .items ']' := ⟨.inl rfl, .lastItem, .item⟩

theorem member_rules :
    ElementRules (fun m : Text × Value => .member m.1 m.2) .members '\x7d' :=
  ⟨.inr rfl, .lastMember, .moreMembers⟩

theorem list_rules : ContainerRules .items '[' ']' (.list []) .list :=
  ⟨.inl rfl, .emptyList, .list⟩

theorem dict_rules :
    ContainerRules .members '\x7b' '\x7d' (.dict []) fun ms => .dict (collect ms) :=
  ⟨.inr rfl, .emptyDict, .dict⟩

theorem spaces_nil : Spaces [] := by
  intro c hc
  cases hc

theorem spaces_cons {c : CodePoint} {w : Text} (hc : isSpace c = true) (hw : Spaces w) :
    Spaces (c :: w) := by
  intro d hd
  rcases List.mem_cons.mp hd with rfl | hd
  · exact hc
  · exact hw d hd

def opensToken (c : CodePoint) : Bool := !c.isBlank && c != ']' && c != '\x7d'

def Begins (s : Text) : Prop := ∃ c rest, s = c :: rest ∧ opensToken c = true

def Ends (s : Text) : Prop := ∃ init c, s = init ++ [c] ∧ isSpace c = false

theorem begins_cons {c : CodePoint} (hc : opensToken c = true) (s : Text) : Begins (c :: s) :=
  ⟨c, s, rfl, hc⟩

theorem opens_not_blank {c : CodePoint} (h : opensToken c = true) : c.isBlank = false := by
  simp only [opensToken, Bool.and_eq_true, Bool.not_eq_true'] at h
  exact h.1.1

theorem space_blank {c : CodePoint} (h : isSpace c = true) : c.isBlank = true := by
  simp only [isSpace, Bool.or_eq_true, decide_eq_true_eq] at h
  rcases h with ((rfl | rfl) | rfl) | rfl <;> decide

theorem opens_not_space {c : CodePoint} (h : opensToken c = true) : isSpace c = false := by
  cases hs : isSpace c with
  | false => rfl
  | true =>
    have hblank := space_blank hs
    rw [opens_not_blank h] at hblank
    cases hblank

theorem opens_not_closing {c : CodePoint} (h : opensToken c = true) : c ≠ ']' ∧ c ≠ '\x7d' := by
  simp only [opensToken, Bool.and_eq_true, bne_iff_ne] at h
  exact ⟨h.1.2, h.2⟩

theorem begins_append {s : Text} (h : Begins s) (t : Text) : Begins (s ++ t) := by
  obtain ⟨c, rest, rfl, hc⟩ := h
  exact ⟨c, rest ++ t, rfl, hc⟩

theorem ends_singleton {c : CodePoint} (hc : isSpace c = false) : Ends [c] := ⟨[], c, rfl, hc⟩

theorem ends_append (s : Text) {t : Text} (h : Ends t) : Ends (s ++ t) := by
  obtain ⟨init, c, rfl, hc⟩ := h
  exact ⟨s ++ init, c, by simp, hc⟩

theorem ends_cons (c : CodePoint) {t : Text} (h : Ends t) : Ends (c :: t) := ends_append [c] h

theorem ends_of_last {s : Text} {c : CodePoint} (h : s.getLast? = some c)
    (hc : isSpace c = false) : Ends s := by
  obtain ⟨init, rfl⟩ := List.getLast?_eq_some_iff.mp h
  exact ⟨init, c, rfl, hc⟩

theorem digit_opens {c : CodePoint} (h : c.isAsciiDigit = true) : opensToken c = true := by
  simp only [CodePoint.isAsciiDigit, Bool.and_eq_true, decide_eq_true_eq] at h
  have hblank : c.isBlank = false := by
    simp [CodePoint.isBlank, blankRanges]
    omega
  have hlist : c ≠ ']' := by
    rintro rfl
    exact absurd h (by decide)
  have hdict : c ≠ '\x7d' := by
    rintro rfl
    exact absurd h (by decide)
  simp [opensToken, hblank, hlist, hdict]

theorem digits_begins {s : Text} (h : Digits s) : Begins s := by
  obtain ⟨c, rest, rfl⟩ := List.exists_cons_of_ne_nil h.1
  exact begins_cons (digit_opens (h.2 c (by simp))) rest

theorem digits_ends {s : Text} (h : Digits s) : Ends s :=
  ends_of_last (List.getLast?_eq_some_getLast h.1)
    (opens_not_space (digit_opens (h.2 _ (List.getLast_mem h.1))))

theorem whole_digits {s : Text} (h : Whole s) : Digits s := by
  rcases h with rfl | ⟨hd, -⟩
  · refine ⟨List.cons_ne_nil _ _, ?_⟩
    intro c hc
    obtain rfl := List.mem_singleton.mp hc
    decide
  · exact hd

theorem fraction_ends {s ds : Text} (h : Fraction s ds) : s = [] ∨ Ends s := by
  cases h with
  | absent => exact Or.inl rfl
  | present hd => exact Or.inr (ends_cons _ (digits_ends hd))

theorem exponent_ends {s : Text} {e : Option Int} (h : Exponent s e) : s = [] ∨ Ends s := by
  cases h with
  | absent => exact Or.inl rfl
  | present _ _ hd => exact Or.inr (ends_cons _ (ends_append _ (digits_ends hd)))

theorem unsigned_begins {negative : Bool} {s : Text} {v : Value} (h : Unsigned negative s v) :
    Begins s := by
  cases h with
  | integer hw _ => exact digits_begins (whole_digits hw)
  | real hw _ _ _ => exact begins_append (digits_begins (whole_digits hw)) _

theorem unsigned_ends {negative : Bool} {s : Text} {v : Value} (h : Unsigned negative s v) :
    Ends s := by
  cases h with
  | integer hw _ => exact digits_ends (whole_digits hw)
  | real hw hf he _ =>
    rcases exponent_ends he with rfl | he
    · rcases fraction_ends hf with rfl | hf
      · simpa using digits_ends (whole_digits hw)
      · simpa using ends_append _ hf
    · exact ends_append _ (ends_append _ he)

theorem number_begins {s : Text} {v : Value} (h : Number s v) : Begins s := by
  cases h with
  | positive h => exact unsigned_begins h
  | negative _ => exact begins_cons (by decide) _

theorem number_ends {s : Text} {v : Value} (h : Number s v) : Ends s := by
  cases h with
  | positive h => exact unsigned_ends h
  | negative h => exact ends_cons _ (unsigned_ends h)

theorem word_begins_ends {w : String} {v : Value} (h : (w, v) ∈ words) :
    Begins (Text.ofString w) ∧ Ends (Text.ofString w) := by
  simp only [words, List.mem_cons, Prod.mk.injEq, List.not_mem_nil, or_false] at h
  rcases h with ⟨rfl, -⟩ | ⟨rfl, -⟩ | ⟨rfl, -⟩ | ⟨rfl, -⟩ | ⟨rfl, -⟩ | ⟨rfl, -⟩ <;>
    exact ⟨⟨_, _, rfl, by decide⟩, ends_of_last rfl (by decide)⟩

/-- Every part of a document begins with a token, and not with the one that closes it. -/
theorem spells_begins {s : Text} {p : Part} (h : Spells s p) : Begins s := by
  induction h with
  | word hw => exact (word_begins_ends hw).1
  | number h => exact number_begins h
  | string _ | emptyList _ | list _ _ _ | emptyDict _ | dict _ _ _ | member _ _ _ _ _ =>
    exact begins_cons (by decide) _
  | lastItem _ _ ih | item _ _ _ _ ih _ | lastMember _ _ ih | moreMembers _ _ _ _ ih _ =>
    exact begins_append ih _

/-- Every part of a document ends with a token. -/
theorem spells_ends {s : Text} {p : Part} (h : Spells s p) : Ends s := by
  have close {c : CodePoint} (w : Text) (hc : isSpace c = false) : Ends (w ++ [c]) :=
    ends_append w (ends_singleton hc)
  induction h with
  | word hw => exact (word_begins_ends hw).2
  | number h => exact number_ends h
  | string _ | emptyList _ | emptyDict _ => exact ends_cons _ (close _ (by decide))
  | list _ _ ih | dict _ _ ih => exact ends_cons _ (ends_append _ ih)
  | lastItem _ _ _ | lastMember _ _ _ => exact ends_append _ (close _ (by decide))
  | item _ _ _ _ _ ih | moreMembers _ _ _ _ _ ih =>
    exact ends_append _ (ends_append _ (ends_cons _ (ends_append _ ih)))
  | member _ _ _ _ ih =>
    exact ends_cons _ (ends_append _ (ends_cons _ (ends_append _ (ends_cons _ (ends_append _ ih)))))

end FileWatch.Json
