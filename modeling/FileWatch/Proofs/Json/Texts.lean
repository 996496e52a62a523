import FileWatch.Json.Encode
import FileWatch.Proofs.Json.Prefixes
/-!
What the writer writes for numbers and strings. The decimal form of an integer is a number of the
grammar, what is written for a text stands for it, and whatever is added to the code points of a
text are graphic characters of ASCII.
-/

namespace FileWatch.Json

/-! Integers. -/

theorem ofNat_small {n : Nat} (h : n < 10) :
    Text.ofNat n = [CodePoint.ofChar (Nat.digitChar n)] := by
  rw [Text.ofNat, Nat.toDigits_of_lt_base h]
  rfl

theorem ofNat_step {n : Nat} (h : 10 ≤ n) :
    Text.ofNat n = Text.ofNat (n / 10) ++ [CodePoint.ofChar (Nat.digitChar (n % 10))] := by
  rw [Text.ofNat, Nat.toDigits_of_base_le (by decide) h, List.map_append]
  rfl

theorem digitChar_value {d : Nat} (h : d < 10) :
    (CodePoint.ofChar (Nat.digitChar d)).asciiDigit? = some d := by
  have all : ∀ d < 10, (CodePoint.ofChar (Nat.digitChar d)).asciiDigit? = some d := by decide
  exact all d h

theorem digitChar_digit {d : Nat} (h : d < 10) :
    (CodePoint.ofChar (Nat.digitChar d)).isAsciiDigit = true := by
  have all : ∀ d < 10, (CodePoint.ofChar (Nat.digitChar d)).isAsciiDigit = true := by decide
  exact all d h

theorem digitChar_zero {d : Nat} (h : d < 10) (hd : d ≠ 0) :
    CodePoint.ofChar (Nat.digitChar d) ≠ '0' := by
  have all : ∀ d < 10, d ≠ 0 → CodePoint.ofChar (Nat.digitChar d) ≠ '0' := by decide
  exact all d h hd

/-- Induction on the decimal digits of a number. -/
theorem decimal_induction {P : Nat → Prop} (small : ∀ n, n < 10 → P n)
    (step : ∀ n, 10 ≤ n → P (n / 10) → P n) (n : Nat) : P n := by
  induction n using Nat.strong_induction_on with
  | _ n ih =>
    by_cases h : n < 10
    · exact small n h
    · exact step n (by omega) (ih (n / 10) (by omega))

theorem digits_append {s : Text} {c : CodePoint} (hs : ∀ d ∈ s, d.isAsciiDigit = true)
    (hc : c.isAsciiDigit = true) : Digits (s ++ [c]) := by
  refine ⟨by simp, ?_⟩
  intro d hd
  rcases List.mem_append.mp hd with hd | hd
  · exact hs d hd
  · obtain rfl := List.mem_singleton.mp hd
    exact hc

theorem ofNat_digits (n : Nat) : Digits (Text.ofNat n) := by
  induction n using decimal_induction with
  | small n h =>
    rw [ofNat_small h]
    exact digits_append (s := []) (by simp) (digitChar_digit h)
  | step n h ih =>
    rw [ofNat_step h]
    exact digits_append ih.2 (digitChar_digit (Nat.mod_lt n (by decide)))

theorem ofNat_head {n : Nat} (hn : n ≠ 0) : (Text.ofNat n).head? ≠ some ('0' : CodePoint) := by
  induction n using decimal_induction with
  | small n h =>
    rw [ofNat_small h]
    simpa using digitChar_zero h hn
  | step n h ih =>
    have hne := (ofNat_digits (n / 10)).1
    obtain ⟨c, rest, hcons⟩ := List.exists_cons_of_ne_nil hne
    have hhead := ih (by omega)
    rw [hcons] at hhead
    rw [ofNat_step h, hcons]
    simpa using hhead

theorem ofNat_whole (n : Nat) : Whole (Text.ofNat n) := by
  by_cases hn : n = 0
  · rw [hn]
    exact Or.inl rfl
  · exact Or.inr ⟨ofNat_digits n, ofNat_head hn⟩

theorem digitsValue_append {s : Text} {c : CodePoint} {d : Nat} (hc : c.asciiDigit? = some d) :
    Numeral.digitsValue (s ++ [c]) = Numeral.digitsValue s * 10 + d := by
  simp [Numeral.digitsValue, hc]

theorem digitsValue_ofNat (n : Nat) : Numeral.digitsValue (Text.ofNat n) = n := by
  induction n using decimal_induction with
  | small n h =>
    rw [ofNat_small h]
    have hvalue := digitsValue_append (s := []) (digitChar_value h)
    rw [List.nil_append] at hvalue
    rw [hvalue]
    simp [Numeral.digitsValue]
  | step n h ih =>
    rw [ofNat_step h, digitsValue_append (digitChar_value (Nat.mod_lt n (by decide))), ih]
    omega

theorem ofNat_length {n k : Nat} (hk : 0 < k) (h : n < 10 ^ k) : (Text.ofNat n).length ≤ k := by
  rw [Text.ofNat, List.length_map]
  exact (Nat.length_toDigits_le_iff (by decide) hk).mpr h

/-- The decimal form of an integer within the limit is a number of the grammar. -/
theorem ofInt_number {n : Int} (h : n.natAbs < 10 ^ Numeral.digitLimit) :
    Number (Text.ofInt n) (.int n) := by
  have hlength := ofNat_length (by decide) h
  have hinteger (negative : Bool) : Unsigned negative (Text.ofNat n.natAbs)
      (.int (signed negative (Text.ofNat n.natAbs))) := .integer (ofNat_whole n.natAbs) hlength
  unfold Text.ofInt
  by_cases hn : n < 0
  · rw [if_pos hn]
    have hvalue : signed true (Text.ofNat n.natAbs) = n := by
      simp only [signed, digitsValue_ofNat, if_true]
      omega
    have hnumber := hinteger true
    rw [hvalue] at hnumber
    exact .negative hnumber
  · rw [if_neg hn]
    have hvalue : signed false (Text.ofNat n.natAbs) = n := by
      simp only [signed, digitsValue_ofNat]
      simp only [Bool.false_eq_true, if_false]
      omega
    have hnumber := hinteger false
    rw [hvalue] at hnumber
    exact .positive hnumber

/-! Graphic characters. -/

def isGraphic (c : CodePoint) : Bool := 0x20 ≤ c.val && c.val < 0x7f

def Graphic (t : Text) : Prop := ∀ c ∈ t, isGraphic c = true

theorem graphic_append {s t : Text} (hs : Graphic s) (ht : Graphic t) : Graphic (s ++ t) := by
  intro c hc
  rcases List.mem_append.mp hc with hc | hc
  · exact hs c hc
  · exact ht c hc

theorem graphic_cons {c : CodePoint} {t : Text} (hc : isGraphic c = true) (ht : Graphic t) :
    Graphic (c :: t) := by
  intro d hd
  rcases List.mem_cons.mp hd with rfl | hd
  · exact hc
  · exact ht d hd

theorem graphic_of_all {t : Text} (h : t.all isGraphic = true) : Graphic t :=
  List.all_eq_true.mp h

theorem graphic_sublist {s t : Text} (h : s.Sublist t) (ht : Graphic t) : Graphic s :=
  fun c hc => ht c (h.subset hc)

theorem graphic_replicate {c : CodePoint} (hc : isGraphic c = true) (n : Nat) :
    Graphic (List.replicate n c) := by
  intro d hd
  rwa [List.eq_of_mem_replicate hd]

theorem ofNat_graphic (n : Nat) : Graphic (Text.ofNat n) := by
  intro c hc
  have hdigit := (ofNat_digits n).2 c hc
  simp only [CodePoint.isAsciiDigit, Bool.and_eq_true, decide_eq_true_eq] at hdigit
  simp only [isGraphic, Bool.and_eq_true, decide_eq_true_eq]
  omega

theorem ofInt_graphic (n : Int) : Graphic (Text.ofInt n) := by
  unfold Text.ofInt
  split
  · exact graphic_cons rfl (ofNat_graphic _)
  · exact ofNat_graphic _

theorem exponentPart_graphic (e : Int) : Graphic (Binary64.exponentPart e) := by
  have hsign : Graphic (if e < 0 then ['e', '-'] else ['e', '+'] : Text) := by
    split <;> exact graphic_of_all rfl
  exact graphic_append hsign (graphic_append (graphic_replicate rfl _) (ofNat_graphic _))

theorem decimal_graphic (d : Binary64.Decimal) : Graphic d.write := by
  have hdigits := ofNat_graphic d.digits
  have hdrop (n : Nat) := graphic_sublist (List.drop_sublist n _) hdigits
  have htake (n : Nat) := graphic_sublist (List.take_sublist n _) hdigits
  unfold Binary64.Decimal.write
  dsimp only
  split_ifs
  · exact graphic_append (graphic_append (graphic_of_all rfl) (graphic_replicate rfl _)) hdigits
  · exact graphic_append (graphic_append hdigits (graphic_replicate rfl _)) (graphic_of_all rfl)
  · exact graphic_append (graphic_append (htake _) (graphic_of_all rfl)) (hdrop _)
  · exact graphic_append (graphic_append (htake _) (graphic_of_all rfl)) (exponentPart_graphic _)
  · exact graphic_append (graphic_append (htake _) (graphic_cons rfl (hdrop _)))
      (exponentPart_graphic _)

theorem writeFloat_graphic (x : Binary64) : Graphic (writeFloat x) := by
  unfold writeFloat Binary64.writeNaming
  cases x with
  | nan => exact graphic_of_all rfl
  | infinite negative => cases negative <;> exact graphic_of_all rfl
  | finite negative mantissa exponent =>
    have hsize : Graphic (if mantissa = 0 then "0.0" else
        (Binary64.shortest mantissa exponent).write) := by
      split
      · exact graphic_of_all rfl
      · exact decimal_graphic _
    cases negative with
    | true => exact graphic_cons rfl hsize
    | false => exact hsize

/-! Strings. -/

def quad? : Text → Option CodePoint
  | [a, b, c, d] => hexQuad? a b c d
  | _ => none

theorem quad_some {t : Text} {point : CodePoint} (h : quad? t = some point) :
    ∃ a b c d, t = [a, b, c, d] ∧ hexQuad? a b c d = some point := by
  unfold quad? at h
  split at h
  · exact ⟨_, _, _, _, rfl, h⟩
  · cases h

theorem hexadecimal_control {n : Nat} (h : n < 0x20) :
    quad? (Text.hexadecimal 4 n) = some (Fin.ofNat 0x110000 n) ∧
      Graphic (Text.hexadecimal 4 n) := by
  have all : ∀ n < 0x20, quad? (Text.hexadecimal 4 n) = some (Fin.ofNat 0x110000 n) ∧
      (Text.hexadecimal 4 n).all isGraphic = true := by decide
  obtain ⟨hquad, hgraphic⟩ := all n h
  exact ⟨hquad, graphic_of_all hgraphic⟩

/-- A code point is escaped with a letter or with its number, or it stands for itself. -/
theorem escaped_cases (c : CodePoint) :
    (∃ letter, escaped c = (['\\', letter] : Text) ∧ simpleEscape? letter = some c ∧
        isGraphic letter = true) ∨
      (escaped c = ('\\' :: 'u' :: Text.hexadecimal 4 c.val : Text) ∧ c.val < 0x20) ∨
      (escaped c = [c] ∧ 0x20 ≤ c.val ∧ c ≠ '"' ∧ c ≠ '\\') := by
  unfold escaped
  split_ifs with h1 h2 h3 h4 h5 h6 h7 h8
  · exact Or.inl ⟨'"', rfl, by rw [h1]; rfl, rfl⟩
  · exact Or.inl ⟨'\\', rfl, by rw [h2]; rfl, rfl⟩
  · exact Or.inl ⟨'n', rfl, by rw [h3]; rfl, rfl⟩
  · exact Or.inl ⟨'r', rfl, by rw [h4]; rfl, rfl⟩
  · exact Or.inl ⟨'t', rfl, by rw [h5]; rfl, rfl⟩
  · exact Or.inl ⟨'b', rfl, by rw [h6]; rfl, rfl⟩
  · exact Or.inl ⟨'f', rfl, by rw [h7]; rfl, rfl⟩
  · exact Or.inr (Or.inl ⟨rfl, h8⟩)
  · exact Or.inr (Or.inr ⟨rfl, by omega, h1, h2⟩)

/-- What is written for a code point stands for it, whatever is written behind. -/
theorem escaped_characters {c : CodePoint} {s t : Text} (h : Characters s t) :
    Characters (escaped c ++ s) (c :: t) := by
  rcases escaped_cases c with ⟨letter, he, hletter, -⟩ | ⟨he, hcontrol⟩ | ⟨he, hplain, hq, hb⟩
  · rw [he]
    exact .simple hletter h
  · obtain ⟨a, b, d, e, hhex, hquad⟩ := quad_some (hexadecimal_control hcontrol).1
    rw [Fin.ofNat_val_eq_self c] at hquad
    rw [he, hhex]
    refine .unicode hquad ?_ h
    rintro ⟨hhigh, -⟩
    simp only [CodePoint.isHighSurrogate, Bool.and_eq_true, decide_eq_true_eq] at hhigh
    omega
  · rw [he]
    exact .plain hplain hq hb h

theorem escaped_text (t : Text) : Characters (t.flatMap escaped) t := by
  induction t with
  | nil => exact .nil
  | cons c t ih =>
    rw [List.flatMap_cons]
    exact escaped_characters ih

theorem simpleEscape_ascii {letter c : CodePoint} (h : simpleEscape? letter = some c) :
    c.val < 0x80 := by
  unfold simpleEscape? at h
  split_ifs at h <;> · cases h; decide

/-- Either graphic characters are written for an ASCII code point, or the code point itself is. -/
theorem escaped_graphic (c : CodePoint) :
    (Graphic (escaped c) ∧ c.val < 0x80) ∨ (escaped c = [c] ∧ 0x20 ≤ c.val) := by
  rcases escaped_cases c with ⟨letter, he, hletter, hgraphic⟩ | ⟨he, hcontrol⟩ | ⟨he, hplain, -, -⟩
  · rw [he]
    exact Or.inl ⟨graphic_cons rfl (graphic_cons hgraphic (graphic_of_all rfl)),
      simpleEscape_ascii hletter⟩
  · rw [he]
    exact Or.inl ⟨graphic_cons rfl (graphic_cons rfl (hexadecimal_control hcontrol).2), by omega⟩
  · exact Or.inr ⟨he, hplain⟩

theorem ascii_encodable {c : CodePoint} (h : c.val < 0x80) : c.isSurrogate = false := by
  simp only [CodePoint.isSurrogate, Bool.and_eq_false_iff, decide_eq_false_iff_not]
  omega

theorem graphic_ascii {c : CodePoint} (h : isGraphic c = true) : c.val < 0x80 := by
  simp only [isGraphic, Bool.and_eq_true, decide_eq_true_eq] at h
  omega

/-- Escapes neither bring in a surrogate nor take one away. -/
theorem escaped_encodable (t : Text) : Encodable (t.flatMap escaped) ↔ Encodable t := by
  have hpoint (c : CodePoint) : Encodable (escaped c) ↔ c.isSurrogate = false := by
    rcases escaped_graphic c with ⟨hgraphic, hascii⟩ | ⟨he, -⟩
    · have hleft : Encodable (escaped c) := by
        intro d hd
        exact ascii_encodable (graphic_ascii (hgraphic d hd))
      exact iff_of_true hleft (ascii_encodable hascii)
    · rw [he]
      exact List.forall_mem_singleton
  constructor
  · intro h c hc
    exact (hpoint c).mp fun d hd => h d (List.mem_flatMap.mpr ⟨c, hc, hd⟩)
  · intro h d hd
    obtain ⟨c, hc, hd⟩ := List.mem_flatMap.mp hd
    exact (hpoint c).mpr (h c hc) d hd

theorem escaped_line_feed (t : Text) : ∀ d ∈ t.flatMap escaped, d ≠ ('\n' : CodePoint) := by
  rintro d hd rfl
  obtain ⟨c, -, hd⟩ := List.mem_flatMap.mp hd
  rcases escaped_graphic c with ⟨hgraphic, -⟩ | ⟨he, hplain⟩
  · exact absurd (hgraphic _ hd) (by decide)
  · rw [he, List.mem_singleton] at hd
    rw [← hd] at hplain
    exact absurd hplain (by decide)

theorem writeString_eq (t : Text) :
    writeString t = ('"' : CodePoint) :: (t.flatMap escaped ++ (['"'] : Text)) := by
  rfl

end FileWatch.Json
