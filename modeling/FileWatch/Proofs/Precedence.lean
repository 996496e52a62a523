import FileWatch.Config.Settings
import FileWatch.Proofs.Lists
import Mathlib.Data.List.DropRight
/-!
Where the settings of a client come from. The socket's path and the binary come from the first
source that is not empty, white space included, and the time limit from the option under its long
name even when that is blank. So a blank value is as good as none unless it stands before a value
that counts: then it masks that value, and only then does it matter that the blank value is there.
-/

namespace FileWatch.Config

/-- The names of a setting's sources: a variable of the environment, then two options. -/
structure Names where
  exported : Text
  long : Text
  short : Text

def Names.sockname : Names := ⟨"WATCHMAN_SOCK", "watchman_sock", "sockname"⟩

def Names.binary : Names := ⟨"WATCHMAN_BINARY", "watchman_binary", "binary"⟩

def Names.timeout : Names := ⟨"WATCHMANLITE_TIMEOUT_S", "watchmanlite_timeout_s", "timeout"⟩

def Names.values (n : Names) (environment : Environment) (options : Options) :
    List (Option Text) :=
  [environment.lookup n.exported, options.lookup n.long, options.lookup n.short]

def firstWith (p : Text → Bool) (values : List (Option Text)) : Option Text :=
  values.findSome? (Option.filter p)

def isFilled (t : Text) : Bool := !t.isBlank

def isNonempty (t : Text) : Bool := !t.isEmpty

inductive Limits : Option Text → Option Binary64 → Prop where
  | unset : Limits none none
  | given {t : Text} {x : Binary64} : Binary64.read t = some x → Limits (some t) (limit? x)

theorem Limits.unique {t : Option Text} {x y : Option Binary64} (hx : Limits t x)
    (hy : Limits t y) : x = y := by
  cases hx with
  | unset =>
    cases hy with
    | unset => rfl
  | given hread =>
    cases hy with
    | given hread' =>
      rw [hread] at hread'
      cases hread'
      rfl

section

variable (environment : Environment) (options : Options)

def chosenLimit : Option Text :=
  (environment.lookup Names.timeout.exported).filter isFilled <|>
    options.lookup Names.timeout.long <|> options.lookup Names.timeout.short

/-- Each setting comes from the source that is taken for it. -/
structure Taken (s : Settings) : Prop where
  sockname : s.sockname =
    (firstWith isNonempty (Names.sockname.values environment options)).map Text.strip
  binary : s.binary =
    ((firstWith isNonempty (Names.binary.values environment options)).map Text.strip).getD
      "watchman"
  timeout : Limits ((chosenLimit environment options).filter isFilled) s.timeout

/-- Each setting comes from the first of its sources that is not blank. -/
structure Preferred (s : Settings) : Prop where
  sockname : s.sockname =
    (firstWith isFilled (Names.sockname.values environment options)).map Text.strip
  binary : s.binary =
    ((firstWith isFilled (Names.binary.values environment options)).map Text.strip).getD "watchman"
  timeout : Limits (firstWith isFilled (Names.timeout.values environment options)) s.timeout

/-- A source that holds white space is taken for a setting, and the setting is not what it would be
without that source. -/
inductive Masked : Prop where
  | sockname {t : Text} :
      firstWith isNonempty (Names.sockname.values environment options) = some t →
      t.isBlank = true → Masked
  | binary {t : Text} :
      firstWith isNonempty (Names.binary.values environment options) = some t →
      t.isBlank = true → Masked
  | timeout {t : Text} :
      (environment.lookup Names.timeout.exported).filter isFilled = none →
      options.lookup Names.timeout.long = some t → t.isBlank = true →
      ¬ Limits ((options.lookup Names.timeout.short).filter isFilled) none → Masked

end

/-! The values of the sources. -/

def given (t : Option Text) : Value := (t.map Value.text).getD .null

theorem lookup_raw (name : Text) (options : Options) :
    Value.lookup? name options.toRaw = (options.lookup name).map Value.text := by
  unfold Value.lookup? Options.toRaw
  induction options with
  | nil => rfl
  | cons entry rest ih =>
    obtain ⟨name', t⟩ := entry
    rw [List.map_cons, List.find?_cons, List.lookup_cons]
    by_cases h : name' = name
    · subst h
      simp [Value.sameKey]
    · have hne : (name == name') = false := by simpa using Ne.symm h
      rw [hne]
      simpa [Value.sameKey, h] using ih

theorem first_with_cons (p : Text → Bool) (v : Option Text) (values : List (Option Text)) :
    firstWith p (v :: values) = (v.filter p <|> firstWith p values) := by
  unfold firstWith
  rw [List.findSome?_cons]
  cases v.filter p <;> rfl

theorem first_given (values : List (Option Text)) :
    firstGiven (values.map given) = (firstWith isNonempty values).map Value.text := by
  unfold firstGiven
  induction values with
  | nil => rfl
  | cons v rest ih =>
    rw [List.map_cons, List.find?_cons, first_with_cons]
    cases v with
    | none => exact ih
    | some t =>
      have htruthy : (given (some t)).isTruthy = isNonempty t := rfl
      rw [htruthy, Option.filter_some]
      cases isNonempty t with
      | true => rfl
      | false => exact ih

theorem given_sources (n : Names) (environment : Environment) (options : Options) :
    [fromEnvironment environment n.exported, option options.toRaw n.long,
      option options.toRaw n.short] = (n.values environment options).map given := by
  simp only [option, lookup_raw]
  rfl

theorem filled_blank {t : Text} (h : t.isBlank = true) : (some t).filter isFilled = none := by
  rw [Option.filter_some, isFilled, h]
  rfl

theorem filled_some {t : Text} (h : t.isBlank = false) :
    (some t).filter isFilled = some t := by
  rw [Option.filter_some, isFilled, h]
  rfl

theorem timeout_blank {t : Text} (h : t.isBlank = true) :
    timeoutOf (given (some t)) = .ok none := by
  have hdisplay : (Value.text t).display = .ok t := rfl
  simp only [timeoutOf, given, Option.map_some, Option.getD_some, hdisplay, h, Except.mapError,
    bind, Except.bind]
  rfl

theorem timeout_filled {t : Text} (h : t.isBlank = false) {x : Option Binary64} :
    timeoutOf (given (some t)) = .ok x ↔ ∃ y, Binary64.read t = some y ∧ x = limit? y := by
  have hdisplay : (Value.text t).display = .ok t := rfl
  have hseconds : readSeconds (.text t) = .ok (Binary64.read t) := rfl
  simp only [timeoutOf, given, Option.map_some, Option.getD_some, hdisplay, hseconds, h,
    Except.mapError, bind, Except.bind]
  cases Binary64.read t with
  | some y =>
    constructor
    · rintro ⟨⟩
      exact ⟨y, rfl, rfl⟩
    · rintro ⟨_, ⟨⟩, rfl⟩
      rfl
  | none =>
    constructor
    · intro hok
      cases hliteral : (Value.text t).literal <;> rw [hliteral] at hok <;> cases hok
    · rintro ⟨_, ⟨⟩, -⟩

theorem timeout_given (t : Option Text) (x : Option Binary64) :
    timeoutOf (given t) = .ok x ↔ Limits (t.filter isFilled) x := by
  cases t with
  | none =>
    constructor
    · rintro ⟨⟩
      exact .unset
    · rintro ⟨⟩
      rfl
  | some t =>
    cases hblank : t.isBlank with
    | true =>
      rw [filled_blank hblank, timeout_blank hblank]
      constructor
      · rintro ⟨⟩
        exact .unset
      · rintro ⟨⟩
        rfl
    | false =>
      rw [filled_some hblank, timeout_filled hblank]
      constructor
      · rintro ⟨_, hnumber, rfl⟩
        exact .given hnumber
      · rintro (_ | hnumber)
        exact ⟨_, hnumber, rfl⟩

/-! What is taken. -/

theorem long_given (options : Options) :
    (Value.lookup? Names.timeout.long options.toRaw).getD
      (option options.toRaw Names.timeout.short) =
        given (options.lookup Names.timeout.long <|> options.lookup Names.timeout.short) := by
  rw [option, lookup_raw, lookup_raw]
  cases options.lookup Names.timeout.long <;> rfl

/-- The variable is read unless it is blank or not set. -/
theorem chosen_given (environment : Environment) (options : Options) :
    let named := options.lookup Names.timeout.long <|> options.lookup Names.timeout.short
    (∃ t, fromEnvironment environment Names.timeout.exported = .text t ∧
      given (chosenLimit environment options) = if t.isBlank then given named else .text t) ∨
    fromEnvironment environment Names.timeout.exported = .null ∧
      given (chosenLimit environment options) = given named := by
  unfold fromEnvironment chosenLimit
  cases environment.lookup Names.timeout.exported with
  | none => exact .inr ⟨rfl, rfl⟩
  | some t =>
    refine .inl ⟨t, rfl, ?_⟩
    cases hblank : t.isBlank with
    | true =>
      rw [filled_blank hblank]
      rfl
    | false =>
      rw [filled_some hblank]
      rfl

theorem settings_slots (environment : Environment) (options : Options) :
    settings environment options.toRaw =
      (timeoutOf (given (chosenLimit environment options))).map fun timeout =>
        { sockname := (firstWith isNonempty (Names.sockname.values environment options)).map
            Text.strip,
          binary := ((firstWith isNonempty (Names.binary.values environment options)).map
            Text.strip).getD "watchman",
          timeout } := by
  have hsockname := given_sources Names.sockname environment options
  have hbinary := given_sources Names.binary environment options
  have hlong := long_given options
  have hchosen := chosen_given environment options
  unfold settings
  dsimp only [Names.sockname, Names.binary, Names.timeout] at hsockname hbinary hlong hchosen ⊢
  rw [hsockname, hbinary, first_given, first_given, hlong]
  rcases hchosen with ⟨t, ht, hchosen⟩ | ⟨hnull, hchosen⟩
  · rw [ht, hchosen]
    dsimp only
    cases timeoutOf (if t.isBlank then _ else Value.text t) with
    | error e => rfl
    | ok timeout =>
      cases firstWith isNonempty _ <;> cases firstWith isNonempty _ <;> rfl
  · rw [hnull, hchosen]
    dsimp only
    cases timeoutOf (given _) with
    | error e => rfl
    | ok timeout =>
      cases firstWith isNonempty _ <;> cases firstWith isNonempty _ <;> rfl

section

variable {environment : Environment} {options : Options} {s : Settings}

theorem settings_taken :
    settings environment options.toRaw = .ok s ↔ Taken environment options s := by
  rw [settings_slots]
  constructor
  · intro h
    cases hlimit : timeoutOf (given (chosenLimit environment options)) with
    | error e =>
      rw [hlimit] at h
      cases h
    | ok x =>
      rw [hlimit] at h
      cases h
      exact ⟨rfl, rfl, (timeout_given _ _).mp hlimit⟩
  · intro h
    rw [(timeout_given _ _).mpr h.timeout, Except.map, ← h.sockname, ← h.binary]

/-! White space that masks a value. -/

theorem strip_nil (t : Text) : t.strip = [] ↔ t.isBlank = true := by
  change (t.dropWhile CodePoint.isBlank).rdropWhile CodePoint.isBlank = [] ↔ _
  rw [List.rdropWhile_eq_nil_iff, Text.isBlank, List.all_eq_true]
  constructor
  · intro h c hc
    rw [← List.takeWhile_append_dropWhile (p := CodePoint.isBlank) (l := t), List.mem_append] at hc
    rcases hc with hc | hc
    · exact List.mem_takeWhile_imp hc
    · exact h c hc
  · exact fun h c hc => h c ((List.dropWhile_suffix _).subset hc)

/-- A source that is not empty is taken, and that is the first that is not blank if it is not blank
itself. -/
theorem first_nonempty (values : List (Option Text)) :
    firstWith isNonempty values = firstWith isFilled values ∨
      ∃ t, firstWith isNonempty values = some t ∧ t.isBlank = true := by
  induction values with
  | nil => exact .inl rfl
  | cons v rest ih =>
    rw [first_with_cons, first_with_cons]
    cases v with
    | none => exact ih
    | some t =>
      rw [Option.filter_some, Option.filter_some]
      cases hempty : isNonempty t with
      | false =>
        have hnil : t = [] := by simpa [isNonempty] using hempty
        subst hnil
        exact ih
      | true =>
        cases hblank : t.isBlank with
        | true => exact .inr ⟨t, rfl, hblank⟩
        | false =>
          left
          simp [isFilled, hblank]

theorem first_holds {p : Text → Bool} {values : List (Option Text)} {t : Text}
    (h : firstWith p values = some t) : some t ∈ values ∧ p t = true := by
  obtain ⟨v, hv, hfilter⟩ := List.exists_of_findSome?_eq_some h
  obtain ⟨rfl, hp⟩ := Option.filter_eq_some_iff.mp hfilter
  exact ⟨hv, hp⟩

/-- A text that is taken and blank is not what the first filled value gives. -/
theorem masked_strip {values : List (Option Text)} {t : Text}
    (h : firstWith isNonempty values = some t) (hblank : t.isBlank = true) :
    (firstWith isNonempty values).map Text.strip = some [] ∧
      (firstWith isFilled values).map Text.strip ≠ some [] := by
  constructor
  · rw [h, Option.map_some, (strip_nil t).mpr hblank]
  · intro hfilled
    obtain ⟨u, hu, hstrip⟩ := Option.map_eq_some_iff.mp hfilled
    have hfull : u.isBlank = false := by simpa [isFilled] using (first_holds hu).2
    exact Bool.false_ne_true (hfull.symm.trans ((strip_nil u).mp hstrip))

/-- The value of the time limit that the first filled source gives. -/
theorem first_limit (h : (environment.lookup Names.timeout.exported).filter isFilled = none) :
    firstWith isFilled (Names.timeout.values environment options) =
      ((options.lookup Names.timeout.long).filter isFilled <|>
        (options.lookup Names.timeout.short).filter isFilled) := by
  rw [Names.values, first_with_cons, first_with_cons, first_with_cons, h]
  cases (options.lookup Names.timeout.long).filter isFilled <;>
    cases (options.lookup Names.timeout.short).filter isFilled <;> rfl

/-- The time limit that is taken is that of the first filled source, or the option under its long
name is blank. -/
theorem chosen_limit (environment : Environment) (options : Options) :
    (chosenLimit environment options).filter isFilled =
        firstWith isFilled (Names.timeout.values environment options) ∨
      (environment.lookup Names.timeout.exported).filter isFilled = none ∧
        (∃ t, options.lookup Names.timeout.long = some t ∧ t.isBlank = true) ∧
        (chosenLimit environment options).filter isFilled = none ∧
        firstWith isFilled (Names.timeout.values environment options) =
          (options.lookup Names.timeout.short).filter isFilled := by
  cases hvariable : (environment.lookup Names.timeout.exported).filter isFilled with
  | some t =>
    left
    have hfilled := (Option.filter_eq_some_iff.mp hvariable).2
    rw [chosenLimit, Names.values, first_with_cons, hvariable]
    simp [hfilled]
  | none =>
    rw [first_limit hvariable, chosenLimit, hvariable]
    cases options.lookup Names.timeout.long with
    | none => exact .inl rfl
    | some t =>
      cases hblank : t.isBlank with
      | true =>
        rw [filled_blank hblank]
        exact .inr ⟨rfl, ⟨t, rfl, hblank⟩, filled_blank hblank, rfl⟩
      | false =>
        rw [filled_some hblank]
        exact .inl (filled_some hblank)

theorem masked_not_preferred (h : Taken environment options s) (hm : Masked environment options) :
    ¬ Preferred environment options s := by
  intro hp
  cases hm with
  | sockname hfirst hblank =>
    obtain ⟨htaken, hfilled⟩ := masked_strip hfirst hblank
    rw [← h.sockname, hp.sockname] at htaken
    exact hfilled htaken
  | binary hfirst hblank =>
    obtain ⟨htaken, hfilled⟩ := masked_strip hfirst hblank
    have hbinary := hp.binary
    rw [h.binary, htaken, Option.getD_some] at hbinary
    cases hcommand : (firstWith isFilled (Names.binary.values environment options)).map
      Text.strip with
    | none =>
      rw [hcommand] at hbinary
      cases hbinary
    | some command =>
      rw [hcommand] at hbinary hfilled
      exact hfilled (congrArg some hbinary.symm)
  | timeout hvariable hlong hblank hshort =>
    have htimeout := h.timeout
    have hpreferred := hp.timeout
    rw [chosenLimit, hvariable, hlong] at htimeout
    change Limits (Option.filter isFilled (some _)) _ at htimeout
    rw [filled_blank hblank] at htimeout
    rw [first_limit hvariable, hlong, filled_blank hblank, htimeout.unique .unset] at hpreferred
    exact hshort hpreferred

/-- Unless white space masks a value, the settings are those of the first filled sources. -/
theorem unmasked_preferred (hm : ¬ Masked environment options) :
    Taken environment options s ↔ Preferred environment options s := by
  have hfirst (n : Names) (hn : ∀ t, firstWith isNonempty (n.values environment options) = some t →
      t.isBlank = true → Masked environment options) :
      firstWith isNonempty (n.values environment options) =
        firstWith isFilled (n.values environment options) := by
    rcases first_nonempty (n.values environment options) with h | ⟨t, ht, hblank⟩
    · exact h
    · exact absurd (hn t ht hblank) hm
  have hsockname := hfirst .sockname fun _ => .sockname
  have hbinary := hfirst .binary fun _ => .binary
  have htimeout (x : Option Binary64) :
      Limits ((chosenLimit environment options).filter isFilled) x ↔
        Limits (firstWith isFilled (Names.timeout.values environment options)) x := by
    rcases chosen_limit environment options with
      h | ⟨hvariable, ⟨t, hlong, hblank⟩, hchosen, hfirst⟩
    · rw [h]
    · have hnone : Limits ((options.lookup Names.timeout.short).filter isFilled) none :=
        not_not.mp fun hshort => hm (.timeout hvariable hlong hblank hshort)
      rw [hchosen, hfirst]
      constructor
      · rintro ⟨⟩
        exact hnone
      · intro h
        rw [h.unique hnone]
        exact .unset
  constructor
  · intro h
    exact ⟨hsockname ▸ h.sockname, hbinary ▸ h.binary, (htimeout _).mp h.timeout⟩
  · intro h
    exact ⟨hsockname ▸ h.sockname, hbinary ▸ h.binary, (htimeout _).mpr h.timeout⟩

end

/-! Names that are taken away. -/

def without (gone : Text → Bool) (entries : List (Text × Text)) : List (Text × Text) :=
  entries.filter fun entry => !gone entry.1

def HoldBlanks (gone : Text → Bool) (entries : List (Text × Text)) : Prop :=
  ∀ name t, gone name = true → entries.lookup name = some t → t.isBlank = true

/-- A value stays as it is, or it is blank and is no longer there. -/
inductive Pruned : Option Text → Option Text → Prop where
  | kept (v : Option Text) : Pruned v v
  | gone {t : Text} : t.isBlank = true → Pruned (some t) none

theorem lookup_without (gone : Text → Bool) (name : Text) (entries : List (Text × Text)) :
    (without gone entries).lookup name = if gone name then none else entries.lookup name := by
  rw [without, lookup_filter fun name => !gone name]
  cases gone name <;> rfl

theorem lookup_pruned {gone : Text → Bool} {entries : List (Text × Text)}
    (h : HoldBlanks gone entries) (name : Text) :
    Pruned (entries.lookup name) ((without gone entries).lookup name) := by
  rw [lookup_without]
  cases hgone : gone name with
  | false => exact .kept _
  | true =>
    cases hlookup : entries.lookup name with
    | none => exact .kept _
    | some t => exact .gone (h name t hgone hlookup)

theorem Pruned.filled {v v' : Option Text} (h : Pruned v v') :
    v'.filter isFilled = v.filter isFilled := by
  cases h with
  | kept => rfl
  | gone hblank => exact (filled_blank hblank).symm

theorem first_filled_pruned {values values' : List (Option Text)}
    (h : List.Forall₂ Pruned values values') :
    firstWith isFilled values' = firstWith isFilled values := by
  induction h with
  | nil => rfl
  | cons hv _ ih => rw [first_with_cons, first_with_cons, hv.filled, ih]

/-- White space that is taken once values are gone stands behind white space that was taken. -/
theorem first_blank_pruned {values values' : List (Option Text)}
    (h : List.Forall₂ Pruned values values') {t : Text}
    (hfirst : firstWith isNonempty values' = some t) (hblank : t.isBlank = true) :
    ∃ t, firstWith isNonempty values = some t ∧ t.isBlank = true := by
  induction h with
  | nil => cases hfirst
  | @cons v v' _ _ hv _ ih =>
    rw [first_with_cons] at hfirst ⊢
    cases hfilter : v.filter isNonempty with
    | none =>
      have hrest : v'.filter isNonempty = none := by
        cases hv with
        | kept => exact hfilter
        | gone => rfl
      rw [hrest] at hfirst
      exact ih hfirst
    | some u =>
      cases hv with
      | kept =>
        rw [hfilter] at hfirst
        cases hfirst
        exact ⟨t, rfl, hblank⟩
      | gone hu =>
        have hsame := (Option.filter_eq_some_iff.mp hfilter).1
        cases hsame
        exact ⟨u, rfl, hu⟩

section

variable {environment : Environment} {options : Options} {gone gone' : Text → Bool}
  (henvironment : HoldBlanks gone environment) (hoptions : HoldBlanks gone' options)

include henvironment hoptions

theorem values_pruned (n : Names) :
    List.Forall₂ Pruned (n.values environment options)
      (n.values (without gone environment) (without gone' options)) :=
  .cons (lookup_pruned henvironment _)
    (.cons (lookup_pruned hoptions _) (.cons (lookup_pruned hoptions _) .nil))

theorem preferred_pruned (s : Settings) :
    Preferred (without gone environment) (without gone' options) s ↔
      Preferred environment options s := by
  have hfirst (n : Names) := first_filled_pruned (values_pruned henvironment hoptions n)
  constructor
  · intro h
    exact ⟨hfirst .sockname ▸ h.sockname, hfirst .binary ▸ h.binary, hfirst .timeout ▸ h.timeout⟩
  · intro h
    exact ⟨hfirst .sockname ▸ h.sockname, hfirst .binary ▸ h.binary, hfirst .timeout ▸ h.timeout⟩

theorem masked_pruned (h : Masked (without gone environment) (without gone' options)) :
    Masked environment options := by
  cases h with
  | sockname hfirst hblank =>
    obtain ⟨t, ht, hblank⟩ :=
      first_blank_pruned (values_pruned henvironment hoptions _) hfirst hblank
    exact .sockname ht hblank
  | binary hfirst hblank =>
    obtain ⟨t, ht, hblank⟩ :=
      first_blank_pruned (values_pruned henvironment hoptions _) hfirst hblank
    exact .binary ht hblank
  | timeout hvariable hlong hblank hshort =>
    rw [(lookup_pruned henvironment _).filled] at hvariable
    rw [(lookup_pruned hoptions _).filled] at hshort
    rw [lookup_without] at hlong
    split at hlong
    · cases hlong
    · exact .timeout hvariable hlong hblank hshort

end

def blankNames (entries : List (Text × Text)) (name : Text) : Bool :=
  (entries.lookup name).any Text.isBlank

theorem blank_names_hold (entries : List (Text × Text)) :
    HoldBlanks (blankNames entries) entries := by
  intro name t hname hlookup
  rw [blankNames, hlookup] at hname
  exact hname

theorem lookup_filled {entries : List (Text × Text)} {name t : Text}
    (h : (without (blankNames entries) entries).lookup name = some t) : t.isBlank = false := by
  rw [lookup_without] at h
  split at h
  · cases h
  · rename_i hname
    rw [blankNames, h] at hname
    simpa using hname

/-- Without blank values nothing is masked. -/
theorem filled_unmasked (environment : Environment) (options : Options) :
    ¬ Masked (without (blankNames environment) environment)
      (without (blankNames options) options) := by
  have hvalues {n : Names} {t : Text} (h : firstWith isNonempty (n.values
      (without (blankNames environment) environment) (without (blankNames options) options)) =
        some t) : t.isBlank = false := by
    have hmem := (first_holds h).1
    simp only [Names.values, List.mem_cons, List.not_mem_nil, or_false] at hmem
    rcases hmem with hlookup | hlookup | hlookup <;> exact lookup_filled hlookup.symm
  rintro (⟨hfirst, hblank⟩ | ⟨hfirst, hblank⟩ | ⟨-, hlong, hblank, -⟩)
  · exact Bool.false_ne_true ((hvalues hfirst).symm.trans hblank)
  · exact Bool.false_ne_true ((hvalues hfirst).symm.trans hblank)
  · exact Bool.false_ne_true ((lookup_filled hlong).symm.trans hblank)

/-- The settings are those of the first sources that are not blank, and stay the same whichever of
the names with a blank value are taken away, unless a blank value masks another. -/
theorem blank_unset_unless_masked (environment : Environment) (options : Options) {s : Settings}
    (h : settings environment options.toRaw = .ok s) :
    Taken environment options s ∧
    (Preferred environment options s ↔ ¬ Masked environment options) ∧
    ((∀ gone gone', HoldBlanks gone environment → HoldBlanks gone' options →
        settings (without gone environment) (Options.toRaw (without gone' options)) = .ok s) ↔
      ¬ Masked environment options) := by
  have htaken := settings_taken.mp h
  have hpreferred : Preferred environment options s ↔ ¬ Masked environment options :=
    ⟨fun hp hm => masked_not_preferred htaken hm hp, fun hm => (unmasked_preferred hm).mp htaken⟩
  refine ⟨htaken, hpreferred, fun hsame => ?_, fun hm gone gone' henvironment hoptions => ?_⟩
  · have hblank := blank_names_hold environment
    have hblank' := blank_names_hold options
    have hfilled := settings_taken.mp (hsame _ _ hblank hblank')
    rw [unmasked_preferred (filled_unmasked environment options),
      preferred_pruned hblank hblank'] at hfilled
    exact hpreferred.mp hfilled
  · have hpruned := (preferred_pruned henvironment hoptions s).mpr (hpreferred.mpr hm)
    have hunmasked := mt (masked_pruned henvironment hoptions) hm
    exact settings_taken.mpr ((unmasked_preferred hunmasked).mpr hpruned)

/-- An empty path in the environment masks nothing. -/
theorem empty_path_unset :
    let environment : Environment := [("WATCHMAN_SOCK", "")]
    let options : Options := [("sockname", " /s "), ("timeout", "0")]
    let s : Settings := { sockname := some "/s" }
    settings environment options.toRaw = .ok s ∧ Preferred environment options s := by
  intro environment options s
  have hs : settings environment options.toRaw = .ok s := by decide +kernel
  refine ⟨hs, (blank_unset_unless_masked environment options hs).2.1.mpr ?_⟩
  rintro (⟨hfirst, hblank⟩ | ⟨hfirst, hblank⟩ | ⟨-, hlong, hblank, -⟩)
  · cases hfirst
    revert hblank
    decide
  · cases hfirst
  · cases hlong

/-- An empty time limit under the long name masks the one under the short name. -/
theorem empty_limit_masks :
    settings [] (Options.toRaw [("watchmanlite_timeout_s", ""), ("timeout", "5")]) = .ok {} ∧
      settings [] (Options.toRaw [("timeout", "5")]) = .ok { timeout := Binary64.read "5" } ∧
      ¬ Preferred [] [("watchmanlite_timeout_s", ""), ("timeout", "5")] {} := by
  have hs : settings [] (Options.toRaw [("watchmanlite_timeout_s", ""), ("timeout", "5")]) =
      .ok {} := by decide +kernel
  have hfive : (Binary64.read "5").map limit? = some (Binary64.read "5") := by decide +kernel
  refine ⟨hs, by decide +kernel, masked_not_preferred (settings_taken.mp hs) ?_⟩
  refine .timeout rfl rfl rfl fun hnone => ?_
  obtain ⟨x, hread, hlimit⟩ := Option.map_eq_some_iff.mp hfive
  have hgiven := hnone.unique (.given hread)
  rw [hlimit, hread] at hgiven
  cases hgiven

end FileWatch.Config
