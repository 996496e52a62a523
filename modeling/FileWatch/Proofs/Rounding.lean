import Mathlib.Tactic.Ring
import FileWatch.Number.Binary64
/-!
The integer part of a quotient that was rounded to a double. It is the quotient without its
fraction, unless the quotient lies so close below an integer that this is the nearest double; then
it is that integer.
-/

namespace FileWatch

namespace Binary64

/-- An even number is reached by a rounded quotient when the quotient lies at most one half below
it: a tie goes to the even neighbour. -/
theorem le_divideToEven {c num den : Nat} (hden : 0 < den) (heven : c % 2 = 0) :
    c ≤ divideToEven num den ↔ 2 * (c * den) ≤ 2 * num + den := by
  have hnum : den * (num / den) + num % den = num := Nat.div_add_mod num den
  have hrest : num % den < den := Nat.mod_lt num hden
  unfold divideToEven
  dsimp only
  generalize num / den = quotient at *
  generalize num % den = rest at *
  rcases Nat.lt_trichotomy c (quotient + 1) with hc | rfl | hc
  · have hle : c * den ≤ den * quotient := by
      rw [Nat.mul_comm den]
      exact Nat.mul_le_mul_right den (by omega)
    split
    · omega
    · split <;> omega
  · -- the quotient is odd here, so that a tie is rounded up
    have hnext : (quotient + 1) * den = den * quotient + den := by ring
    rw [hnext]
    split
    · omega
    · split <;> omega
  · have hlt : den * quotient + 2 * den ≤ c * den := by
      calc den * quotient + 2 * den = (quotient + 2) * den := by ring
        _ ≤ c * den := Nat.mul_le_mul_right den hc
    split
    · omega
    · split <;> omega

/-! The form of a quotient that is rounded to places behind the point. -/

theorem scaled_places (num den places : Nat) :
    scaled num den (-(places : Int)) = (num * 2 ^ places, den) := by
  simp [scaled]

def signed (negative : Bool) (n : Nat) : Int := if negative then -(n : Int) else n

theorem truncate_places (negative : Bool) (mantissa places : Nat) :
    truncate? (.finite negative mantissa (-(places : Int))) =
      some (signed negative (mantissa / 2 ^ places)) := by
  simp [truncate?, signed]

/-- The double of a rounded mantissa. One that was rounded up to its limit is halved. -/
def ofMantissa (negative : Bool) (mantissa : Nat) (exponent : Int) : Binary64 :=
  let (mantissa, exponent) :=
    if mantissa = 2 ^ 53 then (2 ^ 52, exponent + 1) else (mantissa, exponent)
  if greatestExponent < exponent then .infinite negative
  else .finite negative mantissa exponent

theorem truncate_ofMantissa (negative : Bool) (mantissa : Nat) {places : Nat}
    (hplaces : 1 ≤ places) : (ofMantissa negative mantissa (-(places : Int))).truncate? =
      some (signed negative (mantissa / 2 ^ places)) := by
  have hgreatest : ¬ greatestExponent < -(places : Int) + 1 := by
    rw [greatestExponent]
    omega
  unfold ofMantissa
  by_cases hfull : mantissa = 2 ^ 53
  · obtain ⟨rest, rfl⟩ := Nat.exists_eq_add_of_le' hplaces
    have hexponent : -((rest + 1 : Nat) : Int) + 1 = -(rest : Int) := by omega
    have hhalf : 2 ^ 53 / 2 ^ (rest + 1) = 2 ^ 52 / 2 ^ rest := by
      rw [Nat.pow_succ 2 rest]
      exact Nat.mul_div_mul_right (2 ^ 52) (2 ^ rest) Nat.zero_lt_two
    rw [if_pos hfull]
    dsimp only
    rw [if_neg hgreatest, hfull, hexponent, truncate_places, hhalf]
  · rw [if_neg hfull]
    dsimp only
    rw [if_neg (by omega), truncate_places]

/-! How many places a quotient keeps. -/

/-- With so many places behind the point the quotient has a mantissa of 53 bits. -/
structure Keeps (num den places : Nat) : Prop where
  some_place : 1 ≤ places
  low : 2 ^ 52 * den ≤ num * 2 ^ places
  high : num * 2 ^ places < 2 ^ 53 * den

def quotientExponent (num den : Nat) : Int :=
  let guess : Int := num.log2 - den.log2 - 53
  let (n, d) := scaled num den guess
  if n / d < 2 ^ 53 then guess else guess + 1

section

variable {num den : Nat}

theorem log_gap (hnum : num ≠ 0) (hrange : num < 2 ^ 52 * den) :
    num.log2 < den.log2 + 53 := by
  apply (Nat.pow_lt_pow_iff_right (by decide : 1 < 2)).mp
  calc 2 ^ num.log2 ≤ num := Nat.log2_self_le hnum
    _ < 2 ^ 52 * den := hrange
    _ ≤ 2 ^ 52 * 2 ^ (den.log2 + 1) := Nat.mul_le_mul_left _ Nat.lt_log2_self.le
    _ = 2 ^ (den.log2 + 53) := by rw [← Nat.pow_add]; congr 1; omega

/-- The first guess has a mantissa of 53 or 54 bits. -/
theorem guess_bounds (hnum : num ≠ 0) (hden : den ≠ 0) {places : Nat}
    (hplaces : num.log2 + places = den.log2 + 53) :
    2 ^ 52 * den ≤ num * 2 ^ places ∧ num * 2 ^ places < 2 ^ 54 * den := by
  constructor
  · calc 2 ^ 52 * den ≤ 2 ^ 52 * 2 ^ (den.log2 + 1) := Nat.mul_le_mul_left _ Nat.lt_log2_self.le
      _ = 2 ^ num.log2 * 2 ^ places := by rw [← Nat.pow_add, ← Nat.pow_add]; congr 1; omega
      _ ≤ num * 2 ^ places := Nat.mul_le_mul_right _ (Nat.log2_self_le hnum)
  · calc num * 2 ^ places < 2 ^ (num.log2 + 1) * 2 ^ places :=
          Nat.mul_lt_mul_of_pos_right Nat.lt_log2_self (Nat.two_pow_pos places)
      _ = 2 ^ 54 * 2 ^ den.log2 := by rw [← Nat.pow_add, ← Nat.pow_add]; congr 1; omega
      _ ≤ 2 ^ 54 * den := Nat.mul_le_mul_left _ (Nat.log2_self_le hden)

theorem quotientExponent_places (hnum : num ≠ 0) (hden : den ≠ 0) (hrange : num < 2 ^ 52 * den) :
    ∃ places : Nat, quotientExponent num den = -(places : Int) ∧ Keeps num den places ∧
      places ≤ den.log2 + 53 := by
  have hgap := log_gap hnum hrange
  obtain ⟨places, hplaces⟩ : ∃ places, num.log2 + (places + 1) = den.log2 + 53 :=
    ⟨den.log2 + 52 - num.log2, by omega⟩
  have hguess : (num.log2 : Int) - den.log2 - 53 = -((places + 1 : Nat) : Int) := by omega
  obtain ⟨hlow, hhigh⟩ := guess_bounds hnum hden hplaces
  rw [quotientExponent, hguess, scaled_places]
  dsimp only
  by_cases hfits : num * 2 ^ (places + 1) / den < 2 ^ 53
  · rw [if_pos hfits]
    rw [Nat.div_lt_iff_lt_mul (Nat.pos_of_ne_zero hden)] at hfits
    exact ⟨places + 1, rfl, ⟨by omega, hlow, hfits⟩, by omega⟩
  · rw [if_neg hfits]
    rw [Nat.div_lt_iff_lt_mul (Nat.pos_of_ne_zero hden)] at hfits
    have hdouble : num * 2 ^ (places + 1) = num * 2 ^ places * 2 := by
      rw [Nat.pow_succ, Nat.mul_assoc]
    -- one place less is still one place, as the quotient is under 2 ^ 52
    have hone : 1 ≤ places := by
      rcases Nat.eq_zero_or_pos places with rfl | hpos
      · omega
      · exact hpos
    exact ⟨places, by omega, ⟨hone, by omega, by omega⟩, by omega⟩

theorem ofRatio_eq (negative : Bool) (hnum : num ≠ 0) :
    ofRatio negative num den =
      let exponent := max leastExponent (quotientExponent num den)
      ofMantissa negative
        (divideToEven (scaled num den exponent).1 (scaled num den exponent).2) exponent := by
  rw [ofRatio, if_neg hnum]
  rfl

theorem truncate_rounded (negative : Bool) (hnum : num ≠ 0) (hden : den ≠ 0)
    (hrange : num < 2 ^ 52 * den) (hlog : den.log2 < 53) :
    ∃ places, Keeps num den places ∧ (ofRatio negative num den).truncate? =
      some (signed negative (divideToEven (num * 2 ^ places) den / 2 ^ places)) := by
  obtain ⟨places, hexponent, hkeeps, hplaces⟩ := quotientExponent_places hnum hden hrange
  have hleast : max leastExponent (quotientExponent num den) = -(places : Int) := by
    rw [hexponent, leastExponent]
    omega
  rw [ofRatio_eq negative hnum, hleast]
  dsimp only
  rw [scaled_places, truncate_ofMantissa negative _ hkeeps.some_place]
  exact ⟨places, hkeeps, rfl⟩

/-- What a rounded quotient reaches: at most half a unit of its last place is added. -/
theorem le_rounded {places : Nat} (hden : 0 < den) (hplaces : 1 ≤ places) {c : Nat} :
    c ≤ divideToEven (num * 2 ^ places) den / 2 ^ places ↔
      c * den * 2 ^ (places + 1) ≤ num * 2 ^ (places + 1) + den := by
  obtain ⟨rest, rfl⟩ := Nat.exists_eq_add_of_le' hplaces
  have heven : c * 2 ^ (rest + 1) % 2 = 0 := by
    rw [Nat.pow_succ, ← Nat.mul_assoc, Nat.mul_mod_left]
  rw [Nat.le_div_iff_mul_le (Nat.two_pow_pos _), le_divideToEven hden heven,
    show 2 * (c * 2 ^ (rest + 1) * den) = c * den * 2 ^ (rest + 1 + 1) by ring,
    show 2 * (num * 2 ^ (rest + 1)) = num * 2 ^ (rest + 1 + 1) by ring]

end

/-! The integer part of a rounded quotient. -/

/-- The quotient lies so close below the next integer that this is the nearest double: no further
than half the distance between the doubles there. -/
def Carries (num den : Nat) : Prop :=
  2 ^ 53 * (den - num % den) ≤ den * 2 ^ (num / den).log2

instance (num den : Nat) : Decidable (Carries num den) := inferInstanceAs (Decidable (_ ≤ _))

def cutOff (num den : Nat) : Nat := num / den + if Carries num den then 1 else 0

section

variable {num den places : Nat}

/-- The places behind the point are those that the bits in front of it leave. -/
theorem keeps_log (hden : 0 < den) (h : Keeps num den places) (hone : den ≤ num) :
    (num / den).log2 + places = 52 := by
  have hquotient : num / den ≠ 0 := Nat.ne_of_gt (Nat.div_pos hone hden)
  have hlow : 2 ^ (num / den).log2 * den ≤ num :=
    (Nat.le_div_iff_mul_le hden).mp (Nat.log2_self_le hquotient)
  have hhigh : num < 2 ^ ((num / den).log2 + 1) * den :=
    (Nat.div_lt_iff_lt_mul hden).mp Nat.lt_log2_self
  have hover : 2 ^ ((num / den).log2 + places) < 2 ^ 53 := by
    refine Nat.lt_of_mul_lt_mul_right (a := den) ?_
    calc 2 ^ ((num / den).log2 + places) * den
        = 2 ^ (num / den).log2 * den * 2 ^ places := by rw [Nat.pow_add]; ring
      _ ≤ num * 2 ^ places := Nat.mul_le_mul_right _ hlow
      _ < 2 ^ 53 * den := h.high
  have hunder : 2 ^ 52 < 2 ^ ((num / den).log2 + 1 + places) := by
    refine Nat.lt_of_mul_lt_mul_right (a := den) ?_
    calc 2 ^ 52 * den ≤ num * 2 ^ places := h.low
      _ < 2 ^ ((num / den).log2 + 1) * den * 2 ^ places :=
          Nat.mul_lt_mul_of_pos_right hhigh (Nat.two_pow_pos places)
      _ = 2 ^ ((num / den).log2 + 1 + places) * den := by rw [Nat.pow_add _ _ places]; ring
  rw [Nat.pow_lt_pow_iff_right (by decide)] at hover hunder
  omega

/-- The next integer is reached exactly when the quotient is carried there. -/
theorem next_reached (hden : 0 < den) (hsmall : den < 2 ^ 53) (h : Keeps num den places) :
    (num / den + 1) * den * 2 ^ (places + 1) ≤ num * 2 ^ (places + 1) + den ↔
      Carries num den := by
  have hrest : num % den < den := Nat.mod_lt num hden
  have hnext : (num / den + 1) * den = num + (den - num % den) := by
    have hnum : den * (num / den) + num % den = num := Nat.div_add_mod num den
    have hsucc : (num / den + 1) * den = den * (num / den) + den := by ring
    omega
  have hgap : (num / den + 1) * den * 2 ^ (places + 1) ≤ num * 2 ^ (places + 1) + den ↔
      (den - num % den) * 2 ^ (places + 1) ≤ den := by
    rw [hnext, Nat.add_mul]
    omega
  rw [hgap, Carries]
  by_cases hone : den ≤ num
  · have hlog := keeps_log hden h hone
    have hscale : 2 ^ 53 * (den - num % den) =
        (den - num % den) * 2 ^ (places + 1) * 2 ^ (num / den).log2 := by
      rw [Nat.mul_assoc, ← Nat.pow_add, Nat.mul_comm]
      congr 2
      omega
    rw [hscale, Nat.mul_le_mul_right_iff (Nat.two_pow_pos _)]
  · -- below one the distance to the next integer is more than any rounding adds
    have hquotient : num / den = 0 := Nat.div_eq_of_lt (Nat.not_le.mp hone)
    have hplaces : 53 ≤ places + 1 := by
      have hpow : 2 ^ 52 < 2 ^ places := by
        refine Nat.lt_of_mul_lt_mul_right (a := den) ?_
        calc 2 ^ 52 * den ≤ num * 2 ^ places := h.low
          _ < den * 2 ^ places :=
              Nat.mul_lt_mul_of_pos_right (Nat.not_le.mp hone) (Nat.two_pow_pos places)
          _ = 2 ^ places * den := Nat.mul_comm _ _
      rw [Nat.pow_lt_pow_iff_right (by decide)] at hpow
      omega
    have hfar : 2 ^ 53 ≤ (den - num % den) * 2 ^ (places + 1) := by
      calc 2 ^ 53 ≤ 2 ^ (places + 1) := Nat.pow_le_pow_right (by decide) hplaces
        _ ≤ (den - num % den) * 2 ^ (places + 1) := Nat.le_mul_of_pos_left _ (by omega)
    rw [hquotient]
    have hlog : Nat.log2 0 = 0 := by decide
    rw [hlog]
    omega

theorem rounded_cutOff (hden : 0 < den) (hsmall : den < 2 ^ 53) (h : Keeps num den places) :
    divideToEven (num * 2 ^ places) den / 2 ^ places = cutOff num den := by
  have hreached (c : Nat) : c ≤ divideToEven (num * 2 ^ places) den / 2 ^ places ↔
      c * den * 2 ^ (places + 1) ≤ num * 2 ^ (places + 1) + den :=
    le_rounded hden h.some_place
  have hnum : den * (num / den) + num % den = num := Nat.div_add_mod num den
  have hrest : num % den < den := Nat.mod_lt num hden
  have hwhole : num / den ≤ divideToEven (num * 2 ^ places) den / 2 ^ places := by
    refine (hreached _).mpr (Nat.le_add_right_of_le (Nat.mul_le_mul_right _ ?_))
    exact Nat.div_mul_le_self num den
  have hnext : num / den + 1 ≤ divideToEven (num * 2 ^ places) den / 2 ^ places ↔
      Carries num den := (hreached _).trans (next_reached hden hsmall h)
  have hlast : ¬ num / den + 2 ≤ divideToEven (num * 2 ^ places) den / 2 ^ places := by
    rw [hreached, Nat.not_le]
    calc num * 2 ^ (places + 1) + den
        ≤ num * 2 ^ (places + 1) + den * 2 ^ (places + 1) :=
          Nat.add_le_add_left (Nat.le_mul_of_pos_right _ (Nat.two_pow_pos _)) _
      _ = (num + den) * 2 ^ (places + 1) := (Nat.add_mul _ _ _).symm
      _ < (num / den + 2) * den * 2 ^ (places + 1) := by
          refine Nat.mul_lt_mul_of_pos_right ?_ (Nat.two_pow_pos _)
          rw [show (num / den + 2) * den = den * (num / den) + 2 * den by ring]
          omega
  rw [cutOff]
  by_cases hcarries : Carries num den
  · have hup := hnext.mpr hcarries
    rw [if_pos hcarries]
    omega
  · have hdown := mt hnext.mp hcarries
    rw [if_neg hcarries]
    omega

/-- A quotient below 2 ^ 52 that is rounded to a double and cut off. -/
theorem truncate_ofRatio (negative : Bool) (hden : 0 < den) (hsmall : den < 2 ^ 53)
    (hrange : num < 2 ^ 52 * den) :
    (ofRatio negative num den).truncate? = some (signed negative (cutOff num den)) := by
  by_cases hnum : num = 0
  · have hcarries : ¬ Carries 0 den := by
      simp [Carries]
      omega
    rw [hnum, ofRatio, if_pos rfl, zero, cutOff, if_neg hcarries]
    simp [truncate?, signed]
  · have hlog : den.log2 < 53 := (Nat.log2_lt (Nat.ne_of_gt hden)).mpr hsmall
    obtain ⟨places, hkeeps, htruncate⟩ :=
      truncate_rounded negative hnum (Nat.ne_of_gt hden) hrange hlog
    rw [htruncate, rounded_cutOff hden hsmall hkeeps]

theorem cutOff_mono {num' : Nat} (h : num ≤ num') : cutOff num den ≤ cutOff num' den := by
  have hquotient : num / den ≤ num' / den := Nat.div_le_div_right h
  unfold cutOff
  rcases Nat.lt_or_eq_of_le hquotient with hlt | heq
  · split <;> omega
  · have hrest : num % den ≤ num' % den := by
      have hnum := Nat.div_add_mod num den
      have hnum' := Nat.div_add_mod num' den
      rw [heq] at hnum
      omega
    have hcarries : Carries num den → Carries num' den := by
      unfold Carries
      rw [heq]
      exact (Nat.mul_le_mul_left _ (Nat.sub_le_sub_left hrest den)).trans
    rw [heq]
    by_cases hfirst : Carries num den
    · rw [if_pos hfirst, if_pos (hcarries hfirst)]
    · rw [if_neg hfirst]
      omega

end

end Binary64

end FileWatch
