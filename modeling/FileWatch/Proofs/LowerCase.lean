import FileWatch.Text.LetterCase
/-!
Lower case is reached in one step: a text in lower case stays as it is. No lower-case form of a run
of capitals lies in another run, which is checked for every two of them.
-/

namespace FileWatch

def InRun (run : Nat × Nat × Nat × Int) (n : Nat) : Prop :=
  run.1 ≤ n ∧ n ≤ run.2.1 ∧ (n - run.1) % run.2.2.1 = 0

/-- The first and the last lower-case form of a run, and whether there is a gap between any two. -/
def runForms (run : Nat × Nat × Nat × Int) : Nat × Nat × Bool :=
  ((run.1 + run.2.2.2).toNat, (run.2.1 + run.2.2.2).toNat, run.1 == run.2.1 || run.2.2.1 == 2)

/-- Lower-case forms that are not in a run: they lie in front of it, behind it or in its gaps. -/
def apart (forms : Nat × Nat × Bool) (run : Nat × Nat × Nat × Int) : Bool :=
  Nat.blt forms.2.1 run.1 || Nat.blt run.2.1 forms.1 ||
    (forms.2.2 && Nat.beq run.2.2.1 2 && Nat.beq ((forms.1 + run.1) % 2) 1)

def dottedRun : Nat × Nat × Nat × Int := (0x130, 0x130, 1, 0)

theorem runs_apart :
    (capitalRuns.all fun run => (dottedRun :: capitalRuns).all (apart (runForms run))) = true := by
  decide +kernel

theorem runs_fit : ∀ run ∈ capitalRuns,
    0 ≤ run.1 + run.2.2.2 ∧ (run.2.1 + run.2.2.2).toNat < 0x110000 := by
  decide +kernel

theorem form_not_in_run {run other : Nat × Nat × Nat × Int} (hrun : run ∈ capitalRuns)
    (hother : other ∈ dottedRun :: capitalRuns) {n : Nat} (h : InRun run n) :
    ¬ InRun other (n + run.2.2.2).toNat := by
  have hapart := List.all_eq_true.mp (List.all_eq_true.mp runs_apart run hrun) other hother
  have hfit := runs_fit run hrun
  obtain ⟨first, last, step, distance⟩ := run
  obtain ⟨first', last', step', _⟩ := other
  simp only [apart, runForms, Bool.or_eq_true, Bool.and_eq_true, Nat.blt_eq, Nat.beq_eq,
    beq_iff_eq] at hapart
  unfold InRun at h ⊢
  dsimp only at hfit h ⊢
  rcases hapart with (hfront | hbehind) | ⟨⟨hgap | hgap, hstep'⟩, hodd⟩
  · omega
  · omega
  · subst hstep'
    omega
  · subst hgap hstep'
    omega

def CodePoint.Lowered (c : CodePoint) : Prop := c ≠ 'Σ' ∧ c ≠ 'İ' ∧ c.lower = c

instance (c : CodePoint) : Decidable c.Lowered :=
  inferInstanceAs (Decidable (_ ∧ _ ∧ _))

theorem lower_same {c : CodePoint} (h : ∀ run ∈ capitalRuns, ¬ InRun run c.val) :
    c.lower = c := by
  rw [CodePoint.lower, List.find?_eq_none.mpr]
  intro run hrun hin
  refine h run hrun ?_
  simpa [InRun, and_assoc] using hin

/-- A code point is a capital of a run, or its own lower-case form. -/
theorem lower_cases (c : CodePoint) : c.lower = c ∨ ∃ run ∈ capitalRuns, InRun run c.val ∧
    c.lower.val = (c.val + run.2.2.2).toNat := by
  unfold CodePoint.lower
  split
  · rename_i first last step distance hfind
    have hrun := List.mem_of_find?_eq_some hfind
    have hin : InRun (first, last, step, distance) c.val := by
      simpa [InRun, and_assoc] using List.find?_some hfind
    have hbound : (c.val + distance).toNat < 0x110000 := by
      have hlast := (runs_fit _ hrun).2
      unfold InRun at hin
      dsimp only at hlast hin
      omega
    exact Or.inr ⟨_, hrun, hin, Nat.mod_eq_of_lt hbound⟩
  · exact Or.inl rfl

theorem lower_lowered {c : CodePoint} (hsigma : c ≠ 'Σ') (hdotted : c ≠ 'İ') :
    c.lower.Lowered := by
  rcases lower_cases c with hsame | ⟨run, hrun, hin, hform⟩
  · rw [hsame]
    exact ⟨hsigma, hdotted, hsame⟩
  · have hout : ∀ other ∈ dottedRun :: capitalRuns, ¬ InRun other c.lower.val := by
      intro other hother
      rw [hform]
      exact form_not_in_run hrun hother hin
    have hsame := lower_same fun other hother => hout other (List.mem_cons_of_mem _ hother)
    refine ⟨?_, ?_, hsame⟩
    · intro h
      rw [h] at hsame
      revert hsame
      decide
    · intro h
      rw [h] at hout
      exact hout dottedRun List.mem_cons_self (by unfold InRun; decide)

theorem lowerAfter_lowered (before t : Text) : ∀ c ∈ Text.lowerAfter before t, c.Lowered := by
  induction t generalizing before with
  | nil => simp [Text.lowerAfter]
  | cons c rest ih =>
    intro d hd
    rw [Text.lowerAfter, List.mem_append] at hd
    rcases hd with hd | hd
    · split at hd
      · split at hd <;> (rw [List.mem_singleton] at hd; subst hd; decide +kernel)
      · split at hd
        · simp only [List.mem_cons, List.not_mem_nil, or_false] at hd
          rcases hd with rfl | rfl <;> decide +kernel
        · rw [List.mem_singleton] at hd
          subst hd
          exact lower_lowered ‹_› ‹_›
    · exact ih _ d hd

theorem lowerAfter_same (before : Text) {t : Text} (h : ∀ c ∈ t, c.Lowered) :
    Text.lowerAfter before t = t := by
  induction t generalizing before with
  | nil => rfl
  | cons c rest ih =>
    obtain ⟨⟨hsigma, hdotted, hlower⟩, hrest⟩ := List.forall_mem_cons.mp h
    rw [Text.lowerAfter, if_neg hsigma, if_neg hdotted, hlower, ih _ hrest]
    rfl

theorem Text.lower_lower (t : Text) : t.lower.lower = t.lower :=
  lowerAfter_same [] (lowerAfter_lowered [] t)

end FileWatch
