import FileWatch.Proofs.Precedence
import FileWatch.Proofs.SocketPath
/-!
The time limits that a run passes to the system. A limit is given in the environment, in a file or
on the command line, and a number that is zero or less stands for none. The places agree on what a
number stands for unless it is NaN, which is neither positive nor zero or less: on the command line
NaN is no limit, and elsewhere it is one and reaches the system.
-/

namespace FileWatch

open FileWatch.Config (Environment Files Limits Names Options Settings chosenLimit isFilled limit?)
open FileWatch.Command (Poses)

/-! Numbers. -/

theorem CodePoint.blank_range {c : CodePoint} (h : c.isBlank = true) :
    c.val ≤ 0x20 ∨ 0x7f < c.val := by
  simp only [CodePoint.isBlank, blankRanges, List.any_cons, List.any_nil, Bool.or_false,
    Bool.or_eq_true, Bool.and_eq_true, decide_eq_true_eq] at h
  omega

/-- White space lies apart from everything that numerals are written with. -/
theorem CodePoint.blank_ne {c d : CodePoint} (h : c.isBlank = true)
    (hd : 0x20 < d.val ∧ d.val ≤ 0x7f) : c ≠ d := by
  rintro rfl
  have hrange := blank_range h
  omega

theorem Numeral.plain_blank {t : Text} (h : t.isBlank = true) : (plain t).isBlank = true := by
  rw [Text.isBlank, List.all_eq_true] at h ⊢
  intro c hc
  obtain ⟨d, hd, rfl⟩ := List.mem_map.mp hc
  rw [h d hd, if_pos rfl]
  split
  · exact h d hd
  · rfl

namespace Binary64

theorem atMostZero_eq {x : Binary64} (h : x ≠ .nan) : x.isAtMostZero = !x.isPositive := by
  cases x with
  | finite negative mantissa exponent => simp [isAtMostZero, isPositive, bne]
  | infinite negative => simp [isAtMostZero, isPositive]
  | nan => exact absurd rfl h

theorem readUnsigned_blank (negative : Bool) {t : Text} (h : t.isBlank = true) :
    readUnsigned negative t = none := by
  cases t with
  | nil => rfl
  | cons c rest =>
    have hblank : c.isBlank = true := List.all_eq_true.mp h c List.mem_cons_self
    have hpoint : c ≠ '.' := CodePoint.blank_ne hblank (by decide)
    have hsmall : c ≠ 'e' := CodePoint.blank_ne hblank (by decide)
    have hlarge : c ≠ 'E' := CodePoint.blank_ne hblank (by decide)
    have hdigit : c.isAsciiDigit = false := by
      have hrange := CodePoint.blank_range hblank
      simp [CodePoint.isAsciiDigit]
      omega
    simp [readUnsigned, isExponentMark, hdigit, hpoint, hsmall, hlarge]

theorem read_blank {t : Text} (h : t.isBlank = true) : read t = none := by
  rw [read, readPlain]
  -- The body need not be empty: the ASCII separators are white space that is not trimmed here.
  generalize hbody : (Numeral.plain t).trim CodePoint.isAsciiBlank = body
  have hblank : ∀ c ∈ body, c.isBlank = true := by
    intro c hc
    rw [← hbody, Text.trim, List.mem_reverse] at hc
    have hmem := List.mem_reverse.mp ((List.dropWhile_sublist _).subset hc)
    exact List.all_eq_true.mp (Numeral.plain_blank h) c ((List.dropWhile_sublist _).subset hmem)
  have hword : body.filter (fun c : CodePoint => c != '_') = body := by
    rw [List.filter_eq_self]
    intro c hc
    exact bne_iff_ne.mpr (CodePoint.blank_ne (hblank c hc) (by decide))
  have hsign : Numeral.takeSign body = (false, body) := by
    cases body with
    | nil => rfl
    | cons c rest =>
      have hminus : c ≠ '-' := CodePoint.blank_ne (hblank c List.mem_cons_self) (by decide)
      have hplus : c ≠ '+' := CodePoint.blank_ne (hblank c List.mem_cons_self) (by decide)
      simp [Numeral.takeSign, hminus, hplus]
  have hlower : body.map asciiLower = body := by
    refine (List.map_congr_left fun c hc => ?_).trans (List.map_id body)
    have hrange := CodePoint.blank_range (hblank c hc)
    rw [asciiLower, if_neg (by simp; omega), id]
  have hname {w : Text} (hw : w.isBlank = false) : body ≠ w := by
    rintro rfl
    rw [Text.isBlank, List.all_eq_true.mpr hblank] at hw
    cases hw
  have hinfinite : ¬ (body = ("inf" : Text) || body = ("infinity" : Text)) = true := by
    simp [hname (w := "inf") (by decide), hname (w := "infinity") (by decide)]
  dsimp only
  rw [hword, hsign]
  dsimp only
  rw [hlower, if_neg hinfinite, if_neg (hname (by decide)),
    readUnsigned_blank _ (List.all_eq_true.mpr hblank), ite_self]
end Binary64

def SystemCall.timeLimit? : SystemCall → Option Value
  | .run _ timeout | .setTimeout timeout => some timeout
  | _ => none

namespace Client

variable {α β : Type}

def limits (c : Client) : List Value := c.calls.filterMap SystemCall.timeLimit?

theorem limits_called (call : SystemCall) (c : Client) :
    limits (called call c) = limits c ++ call.timeLimit?.toList := by
  cases call <;> simp [limits, called, SystemCall.timeLimit?]

def Within (timeout : Value) (c : Client) : Prop := ∀ v ∈ limits c, v = timeout

def Observes (timeout : Value) (x : Action α) : Prop :=
  ∀ c, Within timeout c → Within timeout (settle x c).2

section

variable {timeout : Value}

theorem observes_custody {x : Action α} (h : Keeps custody x) : Observes timeout x := by
  intro c hc
  have hsame := congrArg limits (h c)
  change limits (settle x c).2 = limits c at hsame
  rw [Within, hsame]
  exact hc

theorem observes_call {call : SystemCall} (h : ∀ v, call.timeLimit? = some v → v = timeout) :
    Observes timeout (Client.call call) := by
  intro c hc v hv
  change v ∈ limits (called call c) at hv
  rw [limits_called, List.mem_append, Option.mem_toList] at hv
  rcases hv with hv | hv
  · exact hc v hv
  · exact h v hv

theorem observes_bind {x : Action α} {f : α → Action β} (hx : Observes timeout x)
    (hf : ∀ a, Observes timeout (f a)) : Observes timeout (x >>= f) := by
  intro c hc
  have hafter := hx c hc
  rw [settle_bind]
  rcases hsettle : settle x c with ⟨e | a, c'⟩
  · rw [hsettle] at hafter
    exact hafter
  · rw [hsettle] at hafter
    exact hf a c' hafter

theorem observes_close : Observes timeout close := by
  intro c hc
  cases hopen : c.isOpen with
  | false =>
    rw [close_closed hopen]
    exact hc
  | true =>
    obtain ⟨-, hreleased, -⟩ := close_open hopen
    have hsame := congrArg limits hreleased
    change limits (settle close c).2 = limits (called .closeSocket c) at hsame
    have hcall : Observes timeout (Client.call .closeSocket) := observes_call nofun
    rw [Within, hsame]
    exact hcall c hc

/-! Connecting. -/

theorem within_called {call : SystemCall} {c : Client} (h : Within timeout c)
    (hcall : ∀ v, call.timeLimit? = some v → v = timeout) : Within timeout (called call c) :=
  observes_call hcall c h

theorem reaches_within {path : Value} {c : Client} {r : Except Failure Unit × Client}
    (h : Within timeout c) (hr : Reaches path c r) : Within timeout r.2 := by
  have htried (p : Text) : Within timeout (called (.connect p) c) := within_called h nofun
  have hwrapped (p : Text) : Within timeout (called .wrapSocket (called (.connect p) c)) :=
    within_called (htried p) nofun
  cases hr with
  | unwritten => exact h
  | unfit => exact htried _
  | refused => exact within_called (htried _) nofun
  | unwrapped => exact within_called (hwrapped _) nofun
  | opened => exact hwrapped _

theorem observes_connectPath (path : Value) : Observes timeout (connectPath path timeout) := by
  intro c hc
  have hcreated : Within timeout (called .createSocket c) := within_called hc nofun
  have hlimiting : ∀ v, (SystemCall.setTimeout timeout).timeLimit? = some v → v = timeout := by
    rintro v ⟨⟩
    rfl
  generalize hr : settle (connectPath path timeout) c = r
  have hends := hr ▸ connectPath_ends path timeout c
  cases hends with
  | uncreated => exact hcreated
  | unlimited => exact within_called hcreated hlimiting
  | reaches _ _ hreaches =>
    refine reaches_within ?_ hreaches
    by_cases hnull : timeout = .null
    · rw [hnull] at hcreated ⊢
      exact hcreated
    · rw [limited_given hnull]
      exact within_called hcreated hlimiting

theorem observes_discover (binary : Value) : Observes timeout (discover binary timeout) := by
  obtain ⟨rest, hrest, hdiscover⟩ := discover_runs binary timeout
  rw [hdiscover]
  refine observes_bind (observes_call ?_) fun _ =>
    observes_custody (keeps_unlogged hrest fun _ => rfl)
  rintro v ⟨⟩
  rfl

end

theorem observes_connect (s : Settings) : Observes s.target.timeout (connect s.target) := by
  cases hsockname : s.sockname with
  | some path =>
    rw [connect_target_some hsockname]
    exact observes_connectPath _
  | none =>
    rw [connect_target_none hsockname]
    exact observes_bind (observes_discover _) fun name => observes_connectPath _

theorem observes_visit (s : Settings) {call : Call} {message : Value}
    (h : call.request = .ok message) :
    Observes s.target.timeout (visit s.target call.perform) := by
  obtain ⟨rest, hrest, hasks⟩ := perform_asks h
  have hperform : Keeps custody call.perform := by
    rw [hasks]
    exact keeps_bind (keeps_send message) fun _ => keeps_custody hrest
  refine observes_bind (observes_connect s) fun _ c hc => ?_
  rw [finally_close]
  exact observes_close _ (observes_custody hperform c hc)

/-- What the settings say is the only limit that an errand passes on. -/
theorem observes_errand {cmd : Command} {errand : Errand} (h : Poses cmd errand) (s : Settings) :
    Observes s.target.timeout (errand.action s) := by
  cases errand with
  | help => exact observes_custody (keeps_pure _)
  | locate =>
    rw [Errand.action]
    dsimp only
    split
    · exact observes_bind (observes_discover _) fun _ => observes_custody (keeps_pure _)
    · exact observes_custody (keeps_pure _)
  | ask log call report =>
    obtain ⟨message, hrequest, -⟩ := Command.poses_message h
    rw [Errand.action, map_eq_pure_bind]
    refine observes_bind (fun _ hc => hc) fun _ => ?_
    exact observes_bind (observes_visit s hrequest) fun _ => observes_custody (keeps_pure _)

end Client

/-! Where a limit comes from. -/

inductive LimitSource where
  | exported
  | loaded
  | spoken
  deriving DecidableEq

namespace LimitSource

def limit : LimitSource → Binary64 → Option Binary64
  | exported, x | loaded, x => limit? x
  | spoken, x => if x.isPositive then some x else none

theorem limit_number {x : Binary64} (h : x ≠ .nan) (source : LimitSource) :
    source.limit x = if x.isPositive then some x else none := by
  cases source with
  | spoken => rfl
  | exported | loaded =>
    rw [limit, limit?, Binary64.atMostZero_eq h]
    cases x.isPositive <;> rfl

theorem limit_nan (source : LimitSource) : source.limit .nan = some .nan ↔ source ≠ .spoken := by
  cases source <;> decide

theorem limit_some {source : LimitSource} {x y : Binary64} (h : source.limit x = some y) :
    y = x ∧ (x ≠ .nan → x.isPositive = true) := by
  by_cases hx : x = .nan
  · subst hx
    refine ⟨?_, fun hne => absurd rfl hne⟩
    cases source <;> cases h <;> rfl
  · rw [limit_number hx] at h
    split at h
    · rename_i hpositive
      cases h
      exact ⟨rfl, fun _ => hpositive⟩
    · cases h

end LimitSource

namespace Run

open FileWatch.Client (Within limits)

/-- The text after `--timeout`; of several the last counts. -/
def spokenLimit (words : List Text) : Option Text :=
  (sharedGrammar.read words).toOption.bind fun a => a.last? .timeout

/-- The text that counts as the time limit, and where it is given. The command line goes before the
environment, and that before the files; but what it goes before must be readable, or there are no
settings. -/
inductive LimitGiven (environment : Environment) (files : Files) (words : List Text) :
    LimitSource → Text → Prop where
  | exported {t options} : spokenLimit words = none → Config.load environment files = .ok options →
      environment.lookup Names.timeout.exported = some t →
      LimitGiven environment files words .exported t
  | loaded {t options} : spokenLimit words = none → Config.load environment files = .ok options →
      (environment.lookup Names.timeout.exported).filter isFilled = none →
      (options.lookup Names.timeout.long <|> options.lookup Names.timeout.short) = some t →
      LimitGiven environment files words .loaded t
  | spoken {t options limit} : spokenLimit words = some t →
      Config.load environment files = .ok options →
      Limits ((chosenLimit environment options).filter isFilled) limit →
      LimitGiven environment files words .spoken t

inductive Effective (environment : Environment) (files : Files) (words : List Text) :
    Option Binary64 → Prop where
  | made {o cmd s} : Accepts words o cmd → Configured environment files o s →
      Effective environment files words s.timeout

section

variable {environment : Environment} {files : Files} {words : List Text} {o : SharedOptions}
  {cmd : Command} {start : Run}

theorem accepted_limit (h : Accepts words o cmd) :
    (spokenLimit words).map Binary64.read = o.timeout.map some := by
  cases h with
  | read hline =>
    unfold CommandLine.read at hline
    unfold spokenLimit
    cases hread : sharedGrammar.read words with
    | error e =>
      rw [hread] at hline
      cases hline
    | ok a =>
      rw [hread] at hline
      change (a.last? .timeout).map Binary64.read = _
      dsimp only [bind, Except.bind, pure, Except.pure] at hline
      split at hline
      · cases hline
      · cases htext : a.last? .timeout with
        | none =>
          rw [htext] at hline
          dsimp only at hline
          split at hline
          · cases hline
          · split at hline <;> cases hline
            rfl
        | some t =>
          rw [htext] at hline
          dsimp only at hline
          cases hx : Binary64.read t with
          | none =>
            rw [hx] at hline
            cases hline
          | some x =>
            rw [hx] at hline
            dsimp only at hline
            rw [Option.map_some, hx]
            split at hline
            · cases hline
            · split at hline <;> cases hline
              rfl

theorem Accepts.unique {o' : SharedOptions} {cmd' : Command} (h : Accepts words o cmd)
    (h' : Accepts words o' cmd') : o' = o := by
  cases h with
  | read hline =>
    cases h' with
    | read hline' =>
      rw [hline] at hline'
      cases hline'
      rfl

theorem Configured.unique {s s' : Settings} (h : Configured environment files o s)
    (h' : Configured environment files o s') : s' = s := by
  cases h with
  | loaded hload hsettings =>
    cases h' with
    | loaded hload' hsettings' =>
      rw [hload] at hload'
      cases hload'
      rw [hsettings] at hsettings'
      cases hsettings'
      rfl

theorem Effective.unique {limit limit' : Option Binary64}
    (h : Effective environment files words limit)
    (h' : Effective environment files words limit') : limit' = limit := by
  cases h with
  | made hwords hs =>
    cases h' with
    | made hwords' hs' =>
      cases hwords.unique hwords'
      rw [hs.unique hs']

/-- Nothing but the text of the time limit can keep settings from being made of options. -/
theorem configured_limit {options : Options} {limit : Option Binary64}
    (hload : Config.load environment files = .ok options)
    (h : Limits ((chosenLimit environment options).filter isFilled) limit) :
    ∃ s, Configured environment files o (overridden o s) ∧ s.timeout = limit := by
  have hsettings := Config.settings_slots environment options
  rw [(Config.timeout_given _ _).mpr h] at hsettings
  exact ⟨_, .loaded hload hsettings, rfl⟩

/-- Without a number on the command line the settings keep what the other sources give. -/
theorem unspoken_effective {options : Options} {t : Text} {x : Binary64}
    (hwords : Accepts words o cmd) (hspoken : spokenLimit words = none)
    (hload : Config.load environment files = .ok options)
    (hchosen : (chosenLimit environment options).filter isFilled = some t)
    (hread : Binary64.read t = some x) : Effective environment files words (limit? x) := by
  have hlimit := accepted_limit hwords
  rw [hspoken, Option.map_none, eq_comm, Option.map_eq_none_iff] at hlimit
  have hgiven : Limits ((chosenLimit environment options).filter isFilled) (limit? x) := by
    rw [hchosen]
    exact .given hread
  obtain ⟨s, hs, htimeout⟩ := configured_limit (o := o) hload hgiven
  have hkept : (overridden o s).timeout = limit? x := by rw [overridden, hlimit, htimeout]
  rw [← hkept]
  exact .made hwords hs

theorem given_effective {source : LimitSource} {t : Text} {x : Binary64}
    (hwords : Accepts words o cmd) (h : LimitGiven environment files words source t)
    (hread : Binary64.read t = some x) : Effective environment files words (source.limit x) := by
  have hfilled : t.isBlank = false := by
    cases hblank : t.isBlank with
    | false => rfl
    | true =>
      rw [Binary64.read_blank hblank] at hread
      cases hread
  cases h with
  | exported hspoken hload hlookup =>
    refine unspoken_effective hwords hspoken hload ?_ hread
    rw [chosenLimit, hlookup, Config.filled_some hfilled]
    exact Config.filled_some hfilled
  | loaded hspoken hload hvariable hlookup =>
    refine unspoken_effective hwords hspoken hload ?_ hread
    rw [chosenLimit, hvariable]
    exact (congrArg (Option.filter isFilled) hlookup).trans (Config.filled_some hfilled)
  | spoken hspoken hload hothers =>
    have hlimit := accepted_limit hwords
    rw [hspoken, Option.map_some, hread, eq_comm, Option.map_eq_some_iff] at hlimit
    obtain ⟨x', ho, ⟨⟩⟩ := hlimit
    obtain ⟨s, hs, -⟩ := configured_limit (o := o) hload hothers
    have htaken : (overridden o s).timeout = LimitSource.spoken.limit x := by
      rw [overridden, ho]
      rfl
    rw [← htaken]
    exact .made hwords hs

theorem chosen_source {options : Options} {t : Text} (hspoken : spokenLimit words = none)
    (hload : Config.load environment files = .ok options)
    (hchosen : (chosenLimit environment options).filter isFilled = some t) :
    ∃ source, LimitGiven environment files words source t ∧ source ≠ .spoken := by
  have hsome := (Option.filter_eq_some_iff.mp hchosen).1
  rw [chosenLimit] at hsome
  cases hvariable : (environment.lookup Names.timeout.exported).filter isFilled with
  | some u =>
    have hlookup := (Option.filter_eq_some_iff.mp hvariable).1
    rw [hvariable] at hsome
    cases hsome
    exact ⟨.exported, .exported hspoken hload hlookup, by decide⟩
  | none =>
    rw [hvariable] at hsome
    exact ⟨.loaded, .loaded hspoken hload hvariable hsome, by decide⟩

/-- A limit that a run has was given to it. -/
theorem effective_given {limit : Option Binary64} (h : Effective environment files words limit) :
    limit = none ∨ ∃ source t x, LimitGiven environment files words source t ∧
      Binary64.read t = some x ∧ limit = LimitSource.limit source x := by
  cases h with
  | @made o cmd s' hwords hs =>
    have hlimit := accepted_limit hwords
    cases hs with
    | @loaded options s hload hsettings =>
      have hothers := (Config.settings_taken.mp hsettings).timeout
      cases hspoken : spokenLimit words with
      | some t =>
        rw [hspoken, Option.map_some, eq_comm, Option.map_eq_some_iff] at hlimit
        obtain ⟨x, ho, hread⟩ := hlimit
        refine Or.inr ⟨.spoken, t, x, .spoken hspoken hload hothers, hread.symm, ?_⟩
        rw [overridden, ho]
        rfl
      | none =>
        rw [hspoken, Option.map_none, eq_comm, Option.map_eq_none_iff] at hlimit
        have hkept : (overridden o s).timeout = s.timeout := by rw [overridden, hlimit]
        rw [hkept]
        generalize hchosen : (chosenLimit environment options).filter isFilled = chosen at hothers
        generalize s.timeout = limit at hothers ⊢
        cases hothers with
        | unset => exact Or.inl rfl
        | @given t x hread =>
          obtain ⟨source, hgiven, hsource⟩ := chosen_source hspoken hload hchosen
          refine Or.inr ⟨source, t, x, hgiven, hread, ?_⟩
          cases source with
          | exported | loaded => rfl
          | spoken => exact absurd rfl hsource

/-- A text that counts settles the limit of the run. -/
theorem given_iff {source : LimitSource} {t : Text} {x : Binary64} (hwords : Accepts words o cmd)
    (h : LimitGiven environment files words source t) (hread : Binary64.read t = some x)
    (limit : Option Binary64) :
    Effective environment files words limit ↔ limit = LimitSource.limit source x := by
  have heffective := given_effective hwords h hread
  constructor
  · exact heffective.unique
  · rintro rfl
    exact heffective

theorem effective_positive {x : Binary64} (h : Effective environment files words (some x)) :
    x.isPositive = true ∨ x = .nan := by
  rcases effective_given h with hnone | ⟨source, t, y, -, -, hlimit⟩
  · cases hnone
  · obtain ⟨rfl, hpositive⟩ := LimitSource.limit_some hlimit.symm
    exact (em (x = .nan)).symm.imp_left hpositive

/-- The limit of a run is NaN if that is what counts, and not on the command line. -/
theorem effective_nan {limit : Option Binary64} (h : Effective environment files words limit) :
    limit = some .nan ↔ ∃ source t, LimitGiven environment files words source t ∧
      source ≠ .spoken ∧ Binary64.read t = some .nan := by
  constructor
  · rintro rfl
    rcases effective_given h with hnone | ⟨source, t, x, hgiven, hread, hlimit⟩
    · cases hnone
    · obtain ⟨rfl, -⟩ := LimitSource.limit_some hlimit.symm
      exact ⟨source, t, hgiven, (LimitSource.limit_nan source).mp hlimit.symm, hread⟩
  · rintro ⟨source, t, hgiven, hsource, hread⟩
    have hwords : ∃ o cmd, Accepts words o cmd := by
      cases h with
      | made hwords _ => exact ⟨_, _, hwords⟩
    obtain ⟨o, cmd, hwords⟩ := hwords
    rw [(given_iff hwords hgiven hread limit).mp h]
    exact (LimitSource.limit_nan source).mpr hsource

/-! Runs. -/

theorem conclude_final (status : Nat) (p : Report.Printer Unit) (r : Run) :
    (final (conclude status p r)).client = r.client := by
  unfold conclude
  split
  · exact tell_final p r
  · generalize (p.run r.errorScreen).run [] = result
    cases result <;> rfl

theorem configure_final (environment : Environment) (files : Files) (o : SharedOptions) (r : Run) :
    (∃ s, (configure environment files o).run r = .ok s r) ∨
      ∃ e r', (configure environment files o).run r = .error e r' ∧ r'.client = r.client := by
  cases hload : Config.load environment files with
  | error e =>
    rw [configure_eq, hload, lift_error]
    exact Or.inr ⟨_, _, rfl, rfl⟩
  | ok options =>
    cases hsettings : Config.settings environment options.toRaw with
    | error e =>
      rw [configure_unset hload hsettings, fail_run]
      generalize ((Report.failure _).run _).run [] = result
      cases result <;> exact Or.inr ⟨_, _, rfl, rfl⟩
    | ok s =>
      rw [configure_configured (.loaded hload hsettings)]
      exact Or.inl ⟨_, rfl⟩

theorem refused_final (h : ∀ o cmd, ¬ Accepts words o cmd) :
    (final ((commandLine environment files words).run start)).client = start.client := by
  rw [commandLine]
  cases hline : CommandLine.read words with
  | error e =>
    rw [lift_error]
    rfl
  | ok line =>
    rw [lift_ok, pure_bind]
    cases line with
    | help => rfl
    | command o name rest =>
      cases hcommand : Command.read name rest with
      | ok cmd => exact absurd (.read hline hcommand) (h o cmd)
      | error e =>
        dsimp only
        rw [EStateM.run_bind, EStateM.run_modify]
        dsimp only
        rw [EStateM.run_bind]
        rcases configure_final environment files o { start with verbose := o.verbose } with
          ⟨s, hrun⟩ | ⟨e', r', hrun, hclient⟩
        · rw [hrun, hcommand, lift_error]
          rfl
        · rw [hrun]
          exact hclient

theorem limits_run (hstart : limits start.client = []) {v : Value}
    (hv : v ∈ limits (final ((commandLine environment files words).run start)).client) :
    ∃ limit, Effective environment files words limit ∧
      v = (limit.map Value.float).getD .null := by
  have hunused (hclient : (final ((commandLine environment files words).run start)).client =
      start.client) : False := by
    rw [hclient, hstart] at hv
    exact List.not_mem_nil hv
  by_cases haccepts : ∃ o cmd, Accepts words o cmd
  · obtain ⟨o, cmd, hwords⟩ := haccepts
    by_cases hconfigured : ∃ s, Configured environment files o s
    · obtain ⟨s, hs⟩ := hconfigured
      rcases Command.poses_or_unfit cmd with ⟨errand, hposes⟩ | ⟨message, hunfit⟩
      · refine ⟨s.timeout, .made hwords hs, ?_⟩
        have hwithin : Within s.target.timeout start.client := by
          intro v hv
          rw [hstart] at hv
          cases hv
        rw [carried_final _ hwords hs hposes] at hv
        exact Client.observes_errand hposes s start.client hwithin v hv
      · refine absurd ?_ hunused
        rw [comes_run hwords (.unfit hs hunfit), conclude_final]
        rfl
    · exact absurd (unconfigured_final _ hwords (not_exists.mp hconfigured)).1 hunused
  · refine absurd (refused_final fun o cmd hwords => ?_) hunused
    exact haccepts ⟨o, cmd, hwords⟩

end

/-- The time limits of runs. A number stands for the same limit wherever it is given, with the one
exception of NaN: it is no limit on the command line and a limit in the environment and the files.
A run passes on the limit of its settings and no other, and that is a number greater than zero
unless it is NaN; and NaN is passed on exactly by the runs that pass on a limit at all and have
theirs from NaN in the environment or a file. -/
theorem limits_of_runs (environment : Environment) (files : Files) (host : Host) (stream : Stream)
    (screen errorScreen : Console) (words : List Text) :
    let c : Client := { host, stream }
    let ended := (commandLine environment files words).run { client := c, screen, errorScreen }
    let passed := limits (final ended).client
    (∀ o cmd source t x, Accepts words o cmd → LimitGiven environment files words source t →
      Binary64.read t = some x →
        ∀ limit, Effective environment files words limit ↔ limit = LimitSource.limit source x) ∧
    (∀ x, (∀ source source', LimitSource.limit source x = LimitSource.limit source' x) ↔
      x ≠ .nan) ∧
    (∀ v ∈ passed, ∃ limit, Effective environment files words limit ∧
      v = (limit.map Value.float).getD .null ∧
        ∀ x, limit = some x → x.isPositive = true ∨ x = .nan) ∧
    (.float .nan ∈ passed ↔ passed ≠ [] ∧ ∃ source t,
      LimitGiven environment files words source t ∧ source ≠ .spoken ∧
        Binary64.read t = some .nan) := by
  intro c ended passed
  have hpassed {v : Value} (hv : v ∈ passed) : ∃ limit, Effective environment files words limit ∧
      v = (limit.map Value.float).getD .null := limits_run rfl hv
  refine ⟨fun o cmd source t x hwords h hread => given_iff hwords h hread, ?_, ?_, ?_⟩
  · intro x
    constructor
    · rintro h rfl
      cases h .exported .spoken
    · intro hx source source'
      rw [LimitSource.limit_number hx, LimitSource.limit_number hx]
  · intro v hv
    obtain ⟨limit, heffective, hlimit⟩ := hpassed hv
    refine ⟨limit, heffective, hlimit, ?_⟩
    rintro x rfl
    exact effective_positive heffective
  · constructor
    · intro hnan
      obtain ⟨limit, heffective, hlimit⟩ := hpassed hnan
      have hsome : limit = some .nan := by
        cases limit with
        | none => cases hlimit
        | some x =>
          cases hlimit
          rfl
      exact ⟨List.ne_nil_of_mem hnan, (effective_nan heffective).mp hsome⟩
    · rintro ⟨hne, hgiven⟩
      obtain ⟨v, hv⟩ := List.exists_mem_of_ne_nil _ hne
      obtain ⟨limit, heffective, rfl⟩ := hpassed hv
      rw [(effective_nan heffective).mpr hgiven] at hv
      exact hv

/-- NaN on the command line is no limit, whatever the environment says. -/
theorem spoken_nan_unlimited :
    .float .nan ∉ limits (final ((commandLine [("WATCHMANLITE_TIMEOUT_S", "nan")]
      ⟨"config.cfg", none, none⟩ ["--sockname", "/s", "--timeout", "nan", "watch-list"]).run
        { client := {} })).client := by
  intro hnan
  obtain ⟨-, source, t, h, hsource, -⟩ := (limits_of_runs _ _ {} {} {} {} _).2.2.2.mp hnan
  cases h with
  | exported hspoken => cases hspoken
  | loaded hspoken => cases hspoken
  | spoken => exact hsource rfl

/-- NaN in the environment reaches the socket. -/
theorem exported_nan_passed :
    .float .nan ∈ limits (final ((commandLine [("WATCHMANLITE_TIMEOUT_S", "nan")]
      ⟨"config.cfg", none, none⟩ ["--sockname", "/s", "watch-list"]).run
        { client := {} })).client := by
  have hwords : Accepts ["--sockname", "/s", "watch-list"] ⟨some "/s", none, false⟩ .watchList :=
    .read rfl rfl
  have hs : Configured [("WATCHMANLITE_TIMEOUT_S", "nan")] ⟨"config.cfg", none, none⟩
      ⟨some "/s", none, false⟩ (overridden ⟨some "/s", none, false⟩ { timeout := some .nan }) :=
    .loaded rfl rfl
  rw [carried_final _ hwords hs .watchList]
  exact List.mem_cons_self

end Run

end FileWatch
