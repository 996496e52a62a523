import Mathlib.Algebra.Order.BigOperators.Group.List
import Mathlib.Data.List.GetD
import FileWatch.Proofs.Rounding
import FileWatch.Query.Wire
import FileWatch.Time.Moment
/-!
The Unix second that a since term is given for a moment. Its instant is counted day by day. The
second is the one that contains the instant, or the next one: before the epoch the fraction of a
second is cut off towards the epoch, and far from the epoch the double that stands for the instant
is a whole second already when the instant is a few microseconds away from it.
-/

namespace FileWatch

namespace Moment

/-! The instant of a moment. -/

def yearLength (year : Nat) : Nat := (monthLengths year).sum

/-- The days that are over since the beginning of year 1: those of the years that are over, those of
the months of the year and those of the month. -/
def daysOver (m : Moment) : Nat :=
  ((List.range' 1 (m.year - 1)).map yearLength).sum +
    ((monthLengths m.year).take (m.month - 1)).sum + (m.day - 1)

def elapsed (m : Moment) : Int :=
  let minutes : Int := (m.daysOver * 24 + m.hour) * 60 + m.minute
  (minutes * 60 + m.second) * 1000000 + m.microsecond - m.offset

def epoch : Moment := ⟨⟨1970, 1, 1, 0, 0, 0, 0, by decide, by decide⟩, 0, by decide⟩

def instant (m : Moment) : Int := m.elapsed - epoch.elapsed

theorem yearLength_eq (year : Nat) : yearLength year = if isLeapYear year then 366 else 365 := by
  unfold yearLength monthLengths
  split <;> rfl

theorem leap_iff (year : Nat) :
    isLeapYear year = true ↔ year % 4 = 0 ∧ (year % 100 ≠ 0 ∨ year % 400 = 0) := by
  simp [isLeapYear]

/-- Of n years every fourth is a leap year, but of the hundredth ones only every fourth. -/
theorem years_sum (n : Nat) :
    ((List.range' 1 n).map yearLength).sum + n / 100 = 365 * n + n / 4 + n / 400 := by
  induction n with
  | zero => rfl
  | succ n ih =>
    rw [List.range'_1_concat, List.map_append, List.sum_append, List.map_singleton,
      List.sum_singleton, yearLength_eq]
    by_cases hleap : isLeapYear (1 + n) = true
    · rw [if_pos hleap]
      rw [leap_iff] at hleap
      omega
    · rw [if_neg hleap]
      rw [leap_iff, not_and_or, not_or, not_not] at hleap
      rcases hleap with hfour | ⟨hhundred, hnot⟩ <;> omega

theorem dayNumber_eq (m : Moment) : m.dayNumber = m.daysOver + 1 := by
  have hyears := years_sum (m.year - 1)
  have hdate := m.date_valid
  have hmonths : ((monthLengths m.year).take (m.month - 1)).foldl (· + ·) 0 =
      ((monthLengths m.year).take (m.month - 1)).sum := List.sum_eq_foldl.symm
  unfold CivilTime.dayNumber daysOver
  dsimp only
  rw [hmonths]
  omega

theorem epoch_elapsed : epoch.elapsed = 719162 * 86400000000 := by
  have hday := dayNumber_eq epoch
  have hnumber : epoch.dayNumber = 719163 := by decide
  unfold elapsed
  dsimp only [epoch] at *
  omega

theorem unixMicroseconds_eq (m : Moment) : m.unixMicroseconds = m.instant := by
  rw [instant, epoch_elapsed, unixMicroseconds, dayNumber_eq, epochDay, elapsed]
  omega

theorem monthLength_le (year month : Nat) : (monthLengths year).getD month 0 ≤ 31 := by
  have hmonths : ∀ days ∈ monthLengths year, days ≤ 31 := by
    unfold monthLengths
    split <;> decide
  by_cases h : month < (monthLengths year).length
  · rw [List.getD_eq_getElem _ _ h]
    exact hmonths _ (List.getElem_mem h)
  · rw [List.getD_eq_default _ _ (Nat.not_lt.mp h)]
    exact Nat.zero_le 31

theorem daysOver_lt (m : Moment) : m.daysOver < 4000000 := by
  have hdate := m.date_valid
  have hyears := years_sum (m.year - 1)
  have hmonths : ((monthLengths m.year).take (m.month - 1)).sum ≤ yearLength m.year :=
    (List.take_sublist _ _).sum_le_sum fun _ _ => Nat.zero_le _
  have hyear : yearLength m.year ≤ 366 := by
    rw [yearLength_eq]
    split <;> omega
  have hday := monthLength_le m.year (m.month - 1)
  unfold daysOver
  omega

/-- Every instant is less than 2 ^ 52 seconds away from the epoch. -/
theorem instant_range (m : Moment) : m.instant.natAbs < 2 ^ 52 * 1000000 := by
  have hdays := daysOver_lt m
  have htime := m.time_valid
  have hoffset := m.offset_valid
  rw [instant, epoch_elapsed, elapsed]
  omega

/-! The second of an instant. -/

/-- Half the distance between neighbouring doubles at a number of seconds, in microseconds without a
fraction. -/
def reach (second : Nat) : Nat := 1000000 * 2 ^ second.log2 / 2 ^ 53

theorem reach_le {second bits : Nat} (h : second < 2 ^ (bits + 1)) :
    reach second ≤ 1000000 * 2 ^ bits / 2 ^ 53 := by
  have hlog : second.log2 ≤ bits := by
    by_cases hzero : second = 0
    · rw [hzero]
      exact Nat.zero_le bits
    · exact Nat.le_of_lt_succ ((Nat.log2_lt hzero).mpr h)
  exact Nat.div_le_div_right (Nat.mul_le_mul_left _ (Nat.pow_le_pow_right (by decide) hlog))

theorem carries_iff (microseconds : Nat) : Binary64.Carries microseconds 1000000 ↔
    1000000 - microseconds % 1000000 ≤ reach (microseconds / 1000000) := by
  rw [Binary64.Carries, reach, Nat.le_div_iff_mul_le (Nat.two_pow_pos 53), Nat.mul_comm (2 ^ 53)]

/-- The second that stands for an instant begins after it. From the epoch on this is so within reach
of the next second, and before the epoch out of reach of the last one. -/
def Late (t : Int) : Prop :=
  0 ≤ t ∧ 1000000 - t % 1000000 ≤ reach (t.natAbs / 1000000) ∨
    t < 0 ∧ reach (t.natAbs / 1000000) < t % 1000000

instance (t : Int) : Decidable (Late t) := inferInstanceAs (Decidable (_ ∧ _ ∨ _ ∧ _))

theorem unixSecond_signed (m : Moment) : m.unixSecond =
    Binary64.signed (m.instant < 0) (Binary64.cutOff m.instant.natAbs 1000000) := by
  rw [unixSecond, unixMicroseconds_eq,
    Binary64.truncate_ofRatio _ (by decide) (by decide) (instant_range m), Option.getD_some]

/-- The second is the one that contains the instant, or the next one if it is late. -/
theorem unixSecond_eq (m : Moment) :
    m.unixSecond = m.instant / 1000000 + if Late m.instant then 1 else 0 := by
  -- under a whole second, so that a whole second stays what it is
  have hreach : reach (m.instant.natAbs / 1000000) ≤ 1000000 * 2 ^ 51 / 2 ^ 53 :=
    reach_le (Nat.div_lt_of_lt_mul (by rw [Nat.mul_comm]; exact instant_range m))
  rw [unixSecond_signed, Binary64.signed, Binary64.cutOff]
  simp only [carries_iff, decide_eq_true_eq]
  generalize m.instant = t at *
  by_cases hlate : Late t
  · rw [if_pos hlate]
    unfold Late at hlate
    split <;> split <;> omega
  · rw [if_neg hlate]
    unfold Late at hlate
    split <;> split <;> omega

theorem unixSecond_mono {m m' : Moment} (h : m.instant ≤ m'.instant) :
    m.unixSecond ≤ m'.unixSecond := by
  have hmono {n n' : Nat} (hle : n ≤ n') :
      Binary64.cutOff n 1000000 ≤ Binary64.cutOff n' 1000000 := Binary64.cutOff_mono hle
  rw [unixSecond_signed, unixSecond_signed]
  unfold Binary64.signed
  simp only [decide_eq_true_eq]
  -- before the epoch a later instant is a smaller number of microseconds
  by_cases hafter : m'.instant < 0
  · have hbefore : m.instant < 0 := Int.lt_of_le_of_lt h hafter
    have hsize := hmono (by omega : m'.instant.natAbs ≤ m.instant.natAbs)
    rw [if_pos hbefore, if_pos hafter]
    omega
  · rw [if_neg hafter]
    by_cases hbefore : m.instant < 0
    · rw [if_pos hbefore]
      omega
    · have hsize := hmono (by omega : m.instant.natAbs ≤ m'.instant.natAbs)
      rw [if_neg hbefore]
      omega

theorem not_late {t : Int} (hfrom : 0 ≤ t) (huntil : t < 2 ^ 34 * 1000000) : ¬ Late t := by
  -- doubles lie less than two microseconds apart there
  have hreach : reach (t.natAbs / 1000000) ≤ 1000000 * 2 ^ 33 / 2 ^ 53 := reach_le (by omega)
  unfold Late
  omega

/-- A since term for a moment is sent with the second that contains its instant, or with the next
one if the instant is late; from the epoch to the year 2514 no instant is. A later instant never has
an earlier second. -/
theorem second_contains_instant_unless_late (here : LocalTime) (m m' : Moment)
    (basis : Option ClockBasis) :
    (∃ e, Constructor.sinceTime.call here (.moment m :: (basis.map Value.basis).toList) = .ok e ∧
      e.wire = .list (.text "since" :: .int m.unixSecond ::
        slot (basis.getD .standard).word?)) ∧
    (¬ Late m.instant →
      m.unixSecond * 1000000 ≤ m.instant ∧ m.instant < (m.unixSecond + 1) * 1000000) ∧
    (Late m.instant →
      (m.unixSecond - 1) * 1000000 ≤ m.instant ∧ m.instant < m.unixSecond * 1000000) ∧
    (0 ≤ m.instant → m.instant < 2 ^ 34 * 1000000 → ¬ Late m.instant) ∧
    (m.instant ≤ m'.instant → m.unixSecond ≤ m'.unixSecond) := by
  have hsecond := unixSecond_eq m
  refine ⟨?_, ?_, ?_, not_late, unixSecond_mono⟩
  · cases basis with
    | none => exact ⟨.since (.timestamp m.unixSecond) .standard, rfl, rfl⟩
    | some basis => exact ⟨.since (.timestamp m.unixSecond) basis, rfl, rfl⟩
  · intro hlate
    rw [if_neg hlate] at hsecond
    omega
  · intro hlate
    rw [if_pos hlate] at hsecond
    omega

/-- An instant of our days and the last microsecond of the year 9999, which is sent as the first
second of the next year. -/
theorem last_microsecond_late :
    let m : Moment :=
      ⟨⟨2023, 11, 15, 3, 43, 20, 250000, by decide, by decide⟩, 19800000000, by decide⟩
    let m' : Moment := ⟨⟨9999, 12, 31, 23, 59, 59, 999999, by decide, by decide⟩, 0, by decide⟩
    m.instant = 1700000000250000 ∧ m.unixSecond * 1000000 ≤ m.instant ∧
      m.instant < (m.unixSecond + 1) * 1000000 ∧ m.unixSecond ≤ m'.unixSecond ∧
      m'.instant = 253402300799999999 ∧ m'.instant < m'.unixSecond * 1000000 := by
  intro m m'
  have hinstant : m.instant = 1700000000250000 := by
    rw [← unixMicroseconds_eq]
    decide
  have hinstant' : m'.instant = 253402300799999999 := by
    rw [← unixMicroseconds_eq]
    decide
  have nowhere : LocalTime := fun _ => .error (.system "no local time")
  obtain ⟨-, hcontained, -, hpunctual, hmono⟩ :=
    second_contains_instant_unless_late nowhere m m' none
  obtain ⟨-, -, hlate, -, -⟩ := second_contains_instant_unless_late nowhere m' m none
  rw [hinstant] at hcontained hpunctual hmono ⊢
  rw [hinstant'] at hlate hmono ⊢
  obtain ⟨hbegins, hends⟩ := hcontained (hpunctual (by decide) (by decide))
  exact ⟨rfl, hbegins, hends, hmono (by decide), rfl, (hlate (by decide)).2⟩

/-- Half a second before the epoch is sent as the epoch. -/
theorem half_second_before_epoch_late :
    ∃ m : Moment, m.instant = -500000 ∧
      (∀ here, ∃ e, Constructor.sinceTime.call here [.moment m] = .ok e ∧
        e.wire = .list [.text "since", .int 0]) ∧
      ¬ ((0 : Int) * 1000000 ≤ m.instant ∧ m.instant < (0 + 1) * 1000000) := by
  have hinstant : (⟨⟨1969, 12, 31, 23, 59, 59, 500000, by decide, by decide⟩, 0, by decide⟩ :
      Moment).instant = -500000 := by
    rw [← unixMicroseconds_eq]
    decide
  refine ⟨_, hinstant, fun here => ⟨.since (.timestamp 0) .standard, rfl, rfl⟩, ?_⟩
  rw [hinstant]
  decide

end Moment

end FileWatch
