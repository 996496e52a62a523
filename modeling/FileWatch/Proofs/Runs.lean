import FileWatch.Proofs.Errands
/-!
Runs of a command line that is accepted. A run loads its settings, carries out what its command asks
for and prints one report. It ends with a status unless its configuration file is at fault, the
report cannot be printed, or the client fails outside its categories.
-/

namespace FileWatch

open FileWatch.Client (settle visit)
open FileWatch.Command (Poses Unfit)
open FileWatch.Config (Environment Files Settings)
open FileWatch.Errand (Achieved Broken)
open FileWatch.Report (Breaks ErrorLine Printer PrintingOnly)

namespace Run

variable {α : Type}

abbrev Outcome := EStateM.Result Ending Run Unit

def status? : Outcome → Option Nat
  | .ok _ _ => some 0
  | .error (.exited status) _ => some status
  | .error _ _ => none

def conclude (status : Nat) (p : Printer Unit) (r : Run) : Outcome :=
  if status = 0 then (tell p).run r
  else
    match (p.run r.errorScreen).run [] with
    | .ok _ t => .error (.exited status) { r with stderr := r.stderr ++ t }
    | .error e t => .error (.report e) { r with stderr := r.stderr ++ t }

/-- The console on which the report that ends a run with a status is printed. -/
def console (r : Run) (status : Nat) : Console := if status = 0 then r.screen else r.errorScreen

theorem fail_run (status : Nat) (message : Text) (r : Run) :
    (fail status message : Step α).run r =
      match ((Report.failure message).run r.errorScreen).run [] with
      | .ok _ t => .error (.exited status) { r with stderr := r.stderr ++ t }
      | .error e t => .error (.report e) { r with stderr := r.stderr ++ t } := by
  rfl

theorem fail_conclude {status : Nat} (h : status ≠ 0) (message : Text) (r : Run) :
    (fail status message).run r = conclude status (Report.failure message) r := by
  rw [conclude, if_neg h, fail_run]

/-! Steps. -/

/-- How the failure of an action ends a run: with the error printed, if it belongs to a category. -/
def failed (e : Failure) (r : Run) : Ending × Run :=
  if e.category?.isSome then
    match ((Report.failure e.message).run r.errorScreen).run [] with
    | .ok _ t => (.exited 1, { r with stderr := r.stderr ++ t })
    | .error e t => (.report e, { r with stderr := r.stderr ++ t })
  else (.failure e, r)

theorem failed_conclude {e : Failure} (h : e.category? ≠ none) (r : Run) :
    .error (failed e r).1 (failed e r).2 = conclude 1 (Report.failure e.message) r := by
  rw [failed, if_pos (Option.isSome_iff_ne_none.mpr h), conclude, if_neg (by decide)]
  generalize ((Report.failure e.message).run r.errorScreen).run [] = result
  cases result <;> rfl

theorem failed_uncategorized {e : Failure} (h : e.category? = none) (r : Run) :
    failed e r = (.failure e, r) := by
  rw [failed, h]
  rfl

theorem failed_client (e : Failure) (r : Run) (c : Client) :
    failed e { r with client := c } = ((failed e r).1, { (failed e r).2 with client := c }) := by
  unfold failed
  dsimp only
  generalize ((Report.failure e.message).run r.errorScreen).run [] = result
  cases e.category?.isSome with
  | false => rfl
  | true => cases result <;> rfl

theorem perform_run (x : Action α) (r : Run) :
    (perform x).run r = match settle x r.client with
      | (.ok a, c) => .ok a { r with client := c }
      | (.error e, c) =>
        .error (failed e { r with client := c }).1 (failed e { r with client := c }).2 := by
  unfold settle perform EStateM.run
  dsimp only
  cases x r.client with
  | ok a c => rfl
  | error e c =>
    dsimp only
    unfold failed
    cases e.category?.isSome with
    | false => rfl
    | true =>
      have hfail := fail_run (α := α) 1 e.message { r with client := c }
      unfold EStateM.run at hfail
      rw [if_pos rfl, if_pos rfl, hfail]
      unfold EStateM.run
      generalize (Report.failure e.message).run r.errorScreen [] = result
      cases result <;> rfl

/-- The failure of an action ends the run in the same way whatever the run was to give. -/
theorem connected_eq (s : Settings) (x : Action α) :
    connected s x = perform (visit s.target x) := by
  funext r
  change (connected s x).run r = (perform (visit s.target x)).run r
  rw [perform_run, visit, Client.settle_bind, connected, EStateM.run_bind, perform_run]
  rcases settle (Client.connect s.target) r.client with ⟨e | u, c⟩
  · rfl
  · dsimp only
    rw [run_finally, perform_run, Client.finally_close]
    -- The connection is closed whichever way the action goes, and closing never fails.
    have hclose (c' : Client) : settle Client.close c' = (.ok (), (settle Client.close c').2) := by
      obtain ⟨c'', hrun⟩ := Client.close_done c'
      simp [settle, hrun]
    rcases settle x c with ⟨e | a, c'⟩
    · dsimp only
      rw [perform_run, failed_client e r c', failed_client e r (settle Client.close c').2]
      dsimp only
      rw [hclose]
    · simp only [perform_run]
      rw [hclose]

/-! Commands. -/

theorem perform_pure (a : α) : perform (pure a) = pure a := rfl

theorem perform_bind {β : Type} (x : Action α) (f : α → Action β) :
    perform (x >>= f) = (do let a ← perform x; perform (f a)) := by
  funext r
  change (perform _).run r = EStateM.run _ r
  rw [EStateM.run_bind, perform_run, perform_run, Client.settle_bind]
  rcases settle x r.client with ⟨e | a, c⟩
  · rfl
  · dsimp only
    rw [perform_run]

theorem visit_bind_pure {β : Type} (target : Target) (x : Action α) (f : α → β) :
    visit target (do let a ← x; pure (f a)) = (do let a ← visit target x; pure (f a)) := by
  have hfinally : (try (do let a ← x; pure (f a)) finally Client.close : Action β) =
      (do let a ← (try x finally Client.close); pure (f a)) := by
    funext c
    refine (run_finally (do let a ← x; pure (f a)) Client.close c).trans ?_
    change _ = (do let a ← (try x finally Client.close); pure (f a) : Action β).run c
    rw [EStateM.run_bind, EStateM.run_bind, run_finally]
    cases x.run c with
    | ok a c' =>
      dsimp only [EStateM.run_pure]
      cases Client.close.run c' <;> rfl
    | error e c' =>
      dsimp only
      cases Client.close.run c' <;> rfl
  rw [visit, visit, hfinally, bind_assoc]

theorem ask_eq {call : Client.Call} {x : Action α} {f : α → Client.Answer}
    (h : call.perform = (do let a ← x; pure (f a))) (s : Settings) (log : List LogRecord)
    (report : Client.Answer → Printer Unit) :
    (do tell (← perform ((Errand.ask log call report).action s))) = (do
      perform (modify fun c => { c with log := c.log ++ log })
      let a ← connected s x
      tell (report (f a))) := by
  rw [Errand.action, h, visit_bind_pure, map_eq_pure_bind, bind_assoc, perform_bind, connected_eq]
  simp only [pure_bind, perform_bind, perform_pure, bind_assoc]

theorem perform_unlogged :
    perform (modify fun c : Client => { c with log := c.log ++ [] }) = pure () := by
  simp only [List.append_nil]
  rfl

theorem sockname_eq (s : Settings) :
    sockname s = (do tell (← perform (Errand.locate.action s))) := by
  rw [sockname, Errand.action]
  dsimp only
  split
  · rw [perform_bind]
    simp only [echo, perform_pure, bind_assoc, pure_bind]
  · simp only [echo, perform_pure, pure_bind]

theorem tell_pure : tell (pure ()) = pure () := by
  funext r
  change EStateM.Result.ok () { r with stdout := r.stdout ++ [] } = .ok () r
  rw [List.append_nil]

theorem query_eq (s : Settings) (q : QueryCommand) :
    query s q = (do
      let e ← require 2 ArgumentError.message q.filters.expression
      let mask ← require 2 FieldError.message q.mask
      perform (do Client.record .debug (← Client.lift .tooLong (expressionRecord e)))
      let result ← connected s (Client.query (.text q.path) (.expression e) (.int mask))
      tell (q.report mask (.files result))) := by
  rw [query, QueryCommand.mask]
  cases q.fields.isEmpty with
  | true => rfl
  | false =>
    simp only [Bool.false_eq_true, if_false]
    rfl

/-- A command that poses an errand carries it out and prints the report. -/
theorem command_poses {cmd : Command} {errand : Errand} (h : Poses cmd errand) (s : Settings) :
    command s cmd = (do tell (← perform (errand.action s))) := by
  cases h with
  | help => exact tell_pure.symm
  | sockname => exact sockname_eq s
  | watch =>
    rw [ask_eq rfl, perform_unlogged, pure_bind]
    rfl
  | watchDel =>
    rw [ask_eq rfl, perform_unlogged, pure_bind]
    rfl
  | watchList =>
    rw [ask_eq rfl, perform_unlogged, pure_bind]
    rfl
  | @query q e note mask hexpression hmask hnote =>
    have hrecord : perform (do Client.record .debug (← Client.lift .tooLong (expressionRecord e))) =
        perform (modify fun c => { c with log := c.log ++ [⟨.debug, note⟩] }) := by
      rw [hnote]
      rfl
    rw [ask_eq rfl, ← hrecord]
    change query s q = _
    rw [query_eq, hexpression, hmask]
    rfl

theorem require_ok {ε : Type} (status : Nat) (message : ε → Text) (a : α) :
    require status message (.ok a) = pure a := by rw [require]

theorem require_error {ε : Type} (status : Nat) (message : ε → Text) (e : ε) :
    (require status message (.error e) : Step α) = fail status (message e) := by rw [require]

theorem fail_bind {β : Type} (status : Nat) (message : Text) (f : α → Step β) :
    (fail status message >>= f) = fail status message := by
  funext r
  have hrun : (fail status message >>= f).run r = (fail status message).run r := by
    rw [EStateM.run_bind, fail_run, fail_run]
    generalize ((Report.failure message).run _).run [] = result
    cases result <;> rfl
  unfold EStateM.run at hrun
  exact hrun

theorem command_unfit {cmd : Command} {message : Text} (h : Unfit cmd message) (s : Settings) :
    command s cmd = fail 2 message := by
  cases h with
  | @filters q e hexpression =>
    change query s q = _
    rw [query_eq, hexpression, require_error, fail_bind]
  | @fields q x e hexpression hmask =>
    change query s q = _
    rw [query_eq, hexpression, require_ok, pure_bind, hmask, require_error, fail_bind]

/-! The settings. -/

def overridden (o : SharedOptions) (s : Settings) : Settings where
  sockname := o.sockname <|> s.sockname
  binary := s.binary
  timeout :=
    match o.timeout with
    | some x => if x.isPositive then some x else none
    | none => s.timeout

def complaint (e : Config.SettingsError) : Text :=
  ("Error loading configuration: " : Text) ++ e.message

inductive Configured (environment : Environment) (files : Files) (o : SharedOptions) :
    Settings → Prop where
  | loaded {options s} : Config.load environment files = .ok options →
      Config.settings environment options.toRaw = .ok s →
      Configured environment files o (overridden o s)

theorem configure_eq (environment : Environment) (files : Files) (o : SharedOptions) :
    configure environment files o = (do
      let options ← lift .load (Config.load environment files)
      let s ← require 1 complaint (Config.settings environment options.toRaw)
      pure (overridden o s)) := by
  unfold configure
  rfl

theorem lift_ok {ε : Type} (ending : ε → Ending) (a : α) : lift ending (.ok a) = pure a := by
  rw [lift]

theorem lift_error {ε : Type} (ending : ε → Ending) (e : ε) :
    (lift ending (.error e) : Step α) = throw (ending e) := by
  rw [lift]

section

variable {environment : Environment} {files : Files} {o : SharedOptions}

theorem configure_configured {s : Settings} (h : Configured environment files o s) :
    configure environment files o = pure s := by
  cases h with
  | loaded hload hsettings =>
    rw [configure_eq, hload, lift_ok, pure_bind, hsettings, require_ok, pure_bind]

theorem configure_unset {options : Config.Options} {e : Config.SettingsError}
    (hload : Config.load environment files = .ok options)
    (hsettings : Config.settings environment options.toRaw = .error e) :
    configure environment files o = fail 1 (complaint e) := by
  rw [configure_eq, hload, lift_ok, pure_bind, hsettings, require_error, fail_bind]

/-- The run with its options read, once it has brought the client that far. -/
def begun (o : SharedOptions) (r : Run) (c : Client) : Run :=
  { r with client := c, verbose := o.verbose }

inductive Accepts (words : List Text) (o : SharedOptions) (cmd : Command) : Prop where
  | read {name rest} : CommandLine.read words = .ok (.command o name rest) →
      Command.read name rest = .ok cmd → Accepts words o cmd

variable {words : List Text} {cmd : Command} {r : Run}

theorem accepted_run (h : Accepts words o cmd) (r : Run) :
    (commandLine environment files words).run r =
      (do command (← configure environment files o) cmd).run (begun o r r.client) := by
  cases h with
  | read hline hcommand =>
    rw [commandLine, hline, lift_ok, pure_bind]
    dsimp only
    rw [hcommand, lift_ok, EStateM.run_bind]
    simp only [pure_bind]
    rfl

/-! What a run comes to. -/

/-- The report that a run comes to print, the status it ends with once that is printed, and the
client by then. -/
inductive Comes (environment : Environment) (files : Files) (o : SharedOptions) (cmd : Command)
    (c : Client) : Nat → Printer Unit → Client → Prop where
  | unset {options e} : Config.load environment files = .ok options →
      Config.settings environment options.toRaw = .error e →
      Comes environment files o cmd c 1 (Report.failure (complaint e)) c
  | unfit {s message} : Configured environment files o s → Unfit cmd message →
      Comes environment files o cmd c 2 (Report.failure message) c
  | failed {s errand e c'} : Configured environment files o s → Poses cmd errand →
      settle (errand.action s) c = (.error e, c') → e.category? ≠ none →
      Comes environment files o cmd c 1 (Report.failure e.message) c'
  | achieved {s errand p c'} : Configured environment files o s → Poses cmd errand →
      settle (errand.action s) c = (.ok p, c') → Comes environment files o cmd c 0 p c'

/-- What the run does once its settings are made. -/
theorem carried_run (hwords : Accepts words o cmd) {s : Settings} {errand : Errand}
    (hs : Configured environment files o s) (hposes : Poses cmd errand) :
    (commandLine environment files words).run r =
      match settle (errand.action s) r.client with
      | (.ok p, c') => (tell p).run (begun o r c')
      | (.error e, c') => .error (failed e (begun o r c')).1 (failed e (begun o r c')).2 := by
  have hclient : (begun o r r.client).client = r.client := rfl
  rw [accepted_run hwords, configure_configured hs, pure_bind, command_poses hposes,
    EStateM.run_bind, perform_run, hclient]
  rcases settle (errand.action s) r.client with ⟨e | p, c'⟩ <;> rfl

theorem comes_run (hwords : Accepts words o cmd) {status : Nat} {p : Printer Unit} {c' : Client}
    (h : Comes environment files o cmd r.client status p c') :
    (commandLine environment files words).run r = conclude status p (begun o r c') := by
  cases h with
  | unset hload hsettings =>
    rw [accepted_run hwords, configure_unset hload hsettings, fail_bind, fail_conclude (by decide)]
  | unfit hs hunfit =>
    rw [accepted_run hwords, configure_configured hs, pure_bind, command_unfit hunfit,
      fail_conclude (by decide)]
  | failed hs hposes haction hcategory =>
    rw [carried_run hwords hs hposes, haction]
    exact failed_conclude hcategory _
  | achieved hs hposes haction =>
    rw [carried_run hwords hs hposes, haction, conclude, if_pos rfl]

/-- A run comes to a report, or ends before it for one of two reasons. -/
theorem run_cases (hwords : Accepts words o cmd) :
    (∃ e, Config.load environment files = .error e ∧
      (commandLine environment files words).run r = .error (.load e) (begun o r r.client)) ∨
    (∃ s errand e c', Configured environment files o s ∧ Poses cmd errand ∧
      settle (errand.action s) r.client = (.error e, c') ∧ e.category? = none ∧
      (commandLine environment files words).run r = .error (.failure e) (begun o r c')) ∨
    ∃ status p c', Comes environment files o cmd r.client status p c' := by
  cases hload : Config.load environment files with
  | error e =>
    refine Or.inl ⟨e, rfl, ?_⟩
    rw [accepted_run hwords, configure_eq, hload, lift_error]
    rfl
  | ok options =>
    cases hsettings : Config.settings environment options.toRaw with
    | error e => exact Or.inr (Or.inr ⟨_, _, _, .unset hload hsettings⟩)
    | ok s =>
      have hs := Configured.loaded (o := o) hload hsettings
      rcases Command.poses_or_unfit cmd with ⟨errand, hposes⟩ | ⟨message, hunfit⟩
      · rcases haction : settle (errand.action (overridden o s)) r.client with ⟨e | p, c'⟩
        · cases hcategory : e.category? with
          | some category =>
            have hhandled : e.category? ≠ none := by simp [hcategory]
            exact Or.inr (Or.inr ⟨_, _, _, .failed hs hposes haction hhandled⟩)
          | none =>
            refine Or.inr (Or.inl ⟨_, errand, e, c', hs, hposes, haction, hcategory, ?_⟩)
            rw [carried_run hwords hs hposes, haction]
            dsimp only
            rw [failed_uncategorized hcategory]
        · exact Or.inr (Or.inr ⟨_, _, _, .achieved hs hposes haction⟩)
      · exact Or.inr (Or.inr ⟨_, _, _, .unfit hs hunfit⟩)

/-! Reports that are printed. -/

theorem status_conclude (status : Nat) (p : Printer Unit) (r : Run) :
    status? (conclude status p r) = match (p.run (r.console status)).run [] with
      | .ok _ _ => some status
      | .error _ _ => none := by
  unfold conclude console tell EStateM.run
  by_cases hzero : status = 0
  · subst hzero
    simp only [if_true]
    generalize p.run r.screen [] = result
    cases result <;> rfl
  · simp only [hzero, if_false]
    generalize p.run r.errorScreen [] = result
    cases result <;> rfl

theorem tell_unexited {p : Printer Unit} {r r' : Run} {status : Nat} :
    (tell p).run r ≠ .error (.exited status) r' := by
  unfold tell EStateM.run
  dsimp only
  generalize p.run r.screen [] = result
  intro h
  cases result <;> cases h

theorem conclude_exited {status status' : Nat} {message : Text} {r r' : Run} (hstatus : status ≠ 0)
    (h : conclude status (Report.failure message) r = .error (.exited status') r') :
    status' = status ∧ r'.client = r.client ∧ r'.stdout = r.stdout ∧
      ∃ t, ErrorLine r.errorScreen t ∧ r'.stderr = r.stderr ++ t := by
  rw [conclude, if_neg hstatus] at h
  cases hrun : ((Report.failure message).run r.errorScreen).run [] with
  | ok u t =>
    rw [hrun] at h
    cases h
    exact ⟨rfl, rfl, rfl, t, Report.failure_line hrun, rfl⟩
  | error e t =>
    rw [hrun] at h
    cases h

theorem answered_within {target : Target} {path expression fields : Value} {a : QueryAnswer}
    {c : Client}
    (h : Client.Answered target (.query path expression fields) c (.files a)) :
    Report.WithinLimit a := by
  cases h with
  | @accepted message v c₁ c₂ c₃ _ _ _ hread hdecode =>
    have hends := Client.read_ends c₂
    rw [hread] at hends
    cases hends with
    | returned _ _ hv =>
      cases hanswer : Reply.queryAnswer v with
      | error e =>
        rw [Client.Call.decode, hanswer] at hdecode
        cases hdecode
      | ok a' =>
        rw [Client.Call.decode, hanswer] at hdecode
        cases hdecode
        exact Report.answerOf_within hv ((Reply.queryAnswer_ok hv.json).mp hanswer)

theorem achieved_prints {s : Settings} {errand : Errand} {p : Printer Unit} {c : Client}
    (hposes : Poses cmd errand) (h : Achieved s c errand p) : PrintingOnly p := by
  cases h with
  | helped => exact Report.printingOnly_pure _
  | configured => exact Report.printingOnly_write _ _
  | discovered => exact Report.printingOnly_write _ _
  | @answered log call report answer hanswered =>
    cases hposes with
    | watch => exact Report.printingOnly_printLine _
    | watchDel => exact Report.printingOnly_printLine _
    | watchList =>
      cases answer with
      | roots w => exact Report.printingOnly_roots w
      | done => exact Report.printingOnly_pure _
      | files a => exact Report.printingOnly_pure _
    | @query q e note mask =>
      cases answer with
      | files a =>
        have hwithin := answered_within hanswered
        change PrintingOnly (if q.asJson then Report.answerJson a else Report.answer a (.int mask))
        split
        · exact Report.printingOnly_answerJson hwithin
        · exact Report.printingOnly_answer hwithin mask
      | done => exact Report.printingOnly_pure _
      | roots w => exact Report.printingOnly_pure _

theorem comes_prints {status : Nat} {p : Printer Unit} {c c' : Client}
    (h : Comes environment files o cmd c status p c') : PrintingOnly p := by
  cases h with
  | unset => exact Report.printingOnly_printLine _
  | unfit => exact Report.printingOnly_printLine _
  | failed => exact Report.printingOnly_printLine _
  | achieved _ hposes haction =>
    have hachieved := (Errand.action_achieved hposes p).mp (congrArg Prod.fst haction)
    exact achieved_prints hposes hachieved

theorem comes_exited {status status' : Nat} {p : Printer Unit} {c' : Client} {r' : Run}
    (h : Comes environment files o cmd r.client status p c')
    (hend : conclude status p (begun o r c') = .error (.exited status') r') :
    (status' = 1 ∨ status' = 2 ∧ r'.client = r.client) ∧ r'.stdout = r.stdout ∧
      ∃ t, ErrorLine r.errorScreen t ∧ r'.stderr = r.stderr ++ t := by
  cases h with
  | unset =>
    obtain ⟨rfl, -, hprinted⟩ := conclude_exited (by decide) hend
    exact ⟨Or.inl rfl, hprinted⟩
  | unfit =>
    obtain ⟨rfl, hclient, hprinted⟩ := conclude_exited (by decide) hend
    exact ⟨Or.inr ⟨rfl, hclient⟩, hprinted⟩
  | failed =>
    obtain ⟨rfl, -, hprinted⟩ := conclude_exited (by decide) hend
    exact ⟨Or.inl rfl, hprinted⟩
  | achieved => exact absurd hend tell_unexited

theorem begun_console (o : SharedOptions) (r : Run) (c : Client) (status : Nat) :
    (begun o r c).console status = r.console status := rfl

/-- The status of a run is that of the report it comes to, if that is printed. -/
theorem status_comes (hwords : Accepts words o cmd) (status : Nat) :
    status? ((commandLine environment files words).run r) = some status ↔
      ∃ p c' t, Comes environment files o cmd r.client status p c' ∧
        (p.run (r.console status)).run [] = .ok () t := by
  constructor
  · intro h
    rcases run_cases (r := r) hwords with ⟨e, -, hrun⟩ | ⟨s, errand, e, c', -, -, -, -, hrun⟩ |
      ⟨status', p, c', hcomes⟩
    · rw [hrun] at h
      cases h
    · rw [hrun] at h
      cases h
    · rw [comes_run hwords hcomes, status_conclude, begun_console] at h
      cases hp : (p.run (r.console status')).run [] with
      | ok u t =>
        rw [hp] at h
        cases h
        exact ⟨p, c', t, hcomes, hp⟩
      | error e t =>
        rw [hp] at h
        cases h
  · rintro ⟨p, c', t, hcomes, hp⟩
    rw [comes_run hwords hcomes, status_conclude, begun_console, hp]

/-- A run ends without a status if its configuration file cannot be read, if the client fails
outside its categories, or if its report cannot be printed. -/
theorem status_missing (hwords : Accepts words o cmd) (hc : Client.Unconnected r.client) :
    status? ((commandLine environment files words).run r) = none ↔
      (∃ e, Config.load environment files = .error e) ∨
      (∃ s errand, Configured environment files o s ∧ Poses cmd errand ∧
        Broken s r.client errand) ∨
      ∃ status p c' e t, Comes environment files o cmd r.client status p c' ∧
        (p.run (r.console status)).run [] = .error e t ∧ Breaks e := by
  constructor
  · intro h
    rcases run_cases (r := r) hwords with ⟨e, hload, -⟩ |
      ⟨s, errand, e, c', hs, hposes, haction, hcategory, -⟩ | ⟨status, p, c', hcomes⟩
    · exact Or.inl ⟨e, hload⟩
    · have hbroken := (Errand.action_broken hposes hc).mp ⟨e, congrArg Prod.fst haction, hcategory⟩
      exact Or.inr (Or.inl ⟨s, errand, hs, hposes, hbroken⟩)
    · rw [comes_run hwords hcomes, status_conclude, begun_console] at h
      cases hp : (p.run (r.console status)).run [] with
      | ok u t =>
        rw [hp] at h
        cases h
      | error e t =>
        have hbreaks := comes_prints hcomes _ [] e t hp
        exact Or.inr (Or.inr ⟨status, p, c', e, t, hcomes, hp, hbreaks⟩)
  · rintro (⟨e, hload⟩ | ⟨s, errand, hs, hposes, hbroken⟩ | ⟨status, p, c', e, t, hcomes, hp, -⟩)
    · rw [accepted_run hwords, configure_eq, hload, lift_error]
      rfl
    · obtain ⟨e, he, hcategory⟩ := (Errand.action_broken hposes hc).mpr hbroken
      rcases haction : settle (errand.action s) r.client with ⟨e' | p, c'⟩
      · rw [haction] at he
        cases he
        rw [carried_run hwords hs hposes, haction]
        dsimp only
        rw [failed_uncategorized hcategory]
        rfl
      · rw [haction] at he
        cases he
    · rw [comes_run hwords hcomes, status_conclude, begun_console, hp]

end

/-- The ends of the runs of an accepted command line, whatever the environment, the files, the host,
the bytes of the daemon and the consoles. A run has a status exactly if it comes to a report that
can be printed. It has status zero exactly if the settings were made, the errand was achieved and
its report was printed; status one or two comes with a line for the error, and status two before
anything is called. -/
theorem statuses_of_runs (environment : Environment) (files : Files) (host : Host)
    (stream : Stream) (screen errorScreen : Console) {words : List Text} {o : SharedOptions}
    {cmd : Command} (hwords : Accepts words o cmd) :
    let c : Client := { host, stream }
    let start : Run := { client := c, screen, errorScreen }
    let ended := (commandLine environment files words).run start
    (∀ status, status? ended = some status ↔
      ∃ p c' t, Comes environment files o cmd c status p c' ∧
        (p.run (start.console status)).run [] = .ok () t) ∧
    (status? ended = some 0 ↔ ∃ s errand p t, Configured environment files o s ∧
      Poses cmd errand ∧ Achieved s c errand p ∧ (p.run screen).run [] = .ok () t) ∧
    (status? ended = none ↔ (∃ e, Config.load environment files = .error e) ∨
      (∃ s errand, Configured environment files o s ∧ Poses cmd errand ∧ Broken s c errand) ∨
      ∃ status p c' e t, Comes environment files o cmd c status p c' ∧
        (p.run (start.console status)).run [] = .error e t ∧ Breaks e) ∧
    ∀ status r, ended = .error (.exited status) r →
      (status = 1 ∨ status = 2 ∧ r.client = c) ∧ r.stdout = [] ∧
        ErrorLine errorScreen r.stderr := by
  intro c start ended
  have hc : Client.Unconnected c := ⟨rfl, rfl, rfl⟩
  refine ⟨status_comes hwords, ?_, status_missing hwords hc, ?_⟩
  · rw [status_comes hwords]
    constructor
    · rintro ⟨p, c', t, hcomes, hp⟩
      cases hcomes with
      | achieved hs hposes haction =>
        have hachieved := (Errand.action_achieved hposes p).mp (congrArg Prod.fst haction)
        exact ⟨_, _, p, t, hs, hposes, hachieved, hp⟩
    · rintro ⟨s, errand, p, t, hs, hposes, hachieved, hp⟩
      have haction := (Errand.action_achieved hposes p).mpr hachieved
      exact ⟨p, _, t, .achieved hs hposes (Prod.ext haction rfl), hp⟩
  · intro status r hend
    rcases run_cases (r := start) hwords with ⟨e, -, hrun⟩ | ⟨s, errand, e, c', -, -, -, -, hrun⟩ |
      ⟨status', p, c', hcomes⟩
    · cases hend.symm.trans hrun
    · cases hend.symm.trans hrun
    · have hconcluded := (comes_run (r := start) hwords hcomes).symm.trans hend
      obtain ⟨hstatus, hout, t, hline, herr⟩ := comes_exited hcomes hconcluded
      rw [herr]
      exact ⟨hstatus, hout, hline⟩

/-- The daemon replies `{"roots":[]}`. -/
theorem nothing_watched_succeeds :
    status? ((commandLine [] ⟨"config.cfg", none, none⟩ ["--sockname", "/s", "watch-list"]).run
      { client := { host := {}, stream := { incoming :=
        [0x7b, 0x22, 0x72, 0x6f, 0x6f, 0x74, 0x73, 0x22, 0x3a, 0x5b, 0x5d, 0x7d, 0x0a] } } }) =
      some 0 := by
  have hwords : Accepts ["--sockname", "/s", "watch-list"] ⟨some "/s", none, false⟩ .watchList :=
    .read rfl rfl
  have hmarkup : Markup.text {} "[dim]No watched roots[/dim]" = .ok "No watched roots" := by
    decide +kernel
  have hprinted : ∃ t, ((Report.roots ⟨[]⟩).run {}).run [] = .ok () t := by
    rw [Report.roots, if_pos List.isEmpty_nil, Report.printLine_run, hmarkup]
    exact ⟨_, rfl⟩
  obtain ⟨t, ht⟩ := hprinted
  exact (statuses_of_runs [] ⟨"config.cfg", none, none⟩ {} _ {} {} hwords).2.1.mpr
    ⟨_, _, _, t, .loaded rfl rfl, .watchList, .answered (.accepted rfl rfl rfl rfl rfl), ht⟩

/-- A configuration file without a section. -/
theorem sectionless_configuration_unhandled :
    status? ((commandLine [] ⟨"config.cfg", some "x", none⟩ ["--sockname", "/s", "watch-list"]).run
      { client := {} }) = none := by
  rfl

end Run

end FileWatch
