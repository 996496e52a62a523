import FileWatch.Proofs.Runs
/-!
The socket's path in the commands of one world. The path that is printed on demand is the path that
the other commands connect to, and the discovery command is run by all of them or by none, unless
the configured path is empty: then discovery is run for printing, and the others connect to the
empty path.
-/

namespace FileWatch

open FileWatch.Config (Environment Files Settings)

def SystemCall.commandRun? : SystemCall → Option (List Value × Value)
  | .run command timeout => some (command, timeout)
  | _ => none

def SystemCall.connectedPath? : SystemCall → Option Text
  | .connect path => some path
  | _ => none

/-- The paths that a client passes on to connect when it is to go to one: none without a socket, or
where a limit is refused. -/
def Host.tried (host : Host) (timeout : Value) (path : Text) : List Text :=
  match host.socketError, timeout with
  | some _, _ => []
  | none, .null => [path]
  | none, _ => if host.limitFault.isSome then [] else [path]

theorem Host.tried_uncreated {host : Host} {e : OsError} (h : host.socketError = some e)
    (timeout : Value) (path : Text) : host.tried timeout path = [] := by
  unfold tried
  rw [h]

theorem Host.tried_unlimited {host : Host} {timeout : Value} {e : CallFault}
    (hnull : timeout ≠ .null) (h : host.limitFault = some e) (path : Text) :
    host.tried timeout path = [] := by
  unfold tried
  cases host.socketError with
  | some e => rfl
  | none =>
    cases timeout with
    | null => exact absurd rfl hnull
    | _ => simp [h]

theorem Host.tried_reached {host : Host} {timeout : Value} (hsocket : host.socketError = none)
    (hlimit : timeout ≠ .null → host.limitFault = none) (path : Text) :
    host.tried timeout path = [path] := by
  unfold tried
  rw [hsocket]
  cases timeout with
  | null => rfl
  | _ => simp [hlimit nofun]

def Config.Settings.inquiry (s : Settings) : List Value × Value :=
  ([.text s.binary, .text "get-sockname"], s.target.timeout)

namespace Config

def pathSources (environment : Environment) (raw : RawOptions) : List Value :=
  [fromEnvironment environment "WATCHMAN_SOCK", option raw "watchman_sock", option raw "sockname"]

/-- The path that the first source that is given holds, without the white space around it. -/
inductive PathFrom (environment : Environment) (raw : RawOptions) : Option Text → Prop where
  | source {v path} : firstGiven (pathSources environment raw) = some v →
      stripped v = .ok path → PathFrom environment raw (some path)
  | missing : firstGiven (pathSources environment raw) = none → PathFrom environment raw none

theorem PathFrom.unique {environment : Environment} {raw : RawOptions} {path path' : Option Text}
    (h : PathFrom environment raw path) (h' : PathFrom environment raw path') : path' = path := by
  cases h with
  | source hsource hpath =>
    cases h' with
    | source hsource' hpath' =>
      rw [hsource] at hsource'
      cases hsource'
      rw [hpath] at hpath'
      cases hpath'
      rfl
    | missing hmissing =>
      rw [hsource] at hmissing
      cases hmissing
  | missing hmissing =>
    cases h' with
    | source hsource' =>
      rw [hmissing] at hsource'
      cases hsource'
    | missing => rfl

theorem settings_path (environment : Environment) (raw : RawOptions) :
    Gives (fun s => PathFrom environment raw s.sockname) (settings environment raw) := by
  have hrest (timeout : Option Binary64) {path : Except SettingsError (Option Text)}
      (hpath : Gives (PathFrom environment raw) path) :
      Gives (fun s : Settings => PathFrom environment raw s.sockname) (do
        let sockname ← path
        let binary ← stripped ((firstGiven [fromEnvironment environment "WATCHMAN_BINARY",
          option raw "watchman_binary", option raw "binary"]).getD (.text "watchman"))
        pure ⟨sockname, binary, timeout⟩) :=
    gives_bind hpath fun _ hsockname => gives_bind (gives_any _) fun _ _ => gives_ok hsockname
  have hsources : pathSources environment raw = [fromEnvironment environment "WATCHMAN_SOCK",
    option raw "watchman_sock", option raw "sockname"] := rfl
  unfold settings
  dsimp only
  rw [← hsources]
  cases hsource : firstGiven (pathSources environment raw) with
  | none =>
    have hmissing := gives_ok (ε := SettingsError) (PathFrom.missing hsource)
    split <;> exact gives_bind (gives_any _) fun timeout _ => hrest timeout hmissing
  | some v =>
    have hgiven : Gives (PathFrom environment raw) (some <$> stripped v) := by
      cases hv : stripped v with
      | error e => exact gives_error e
      | ok path => exact gives_ok (.source hsource hv)
    split <;> exact gives_bind (gives_any _) fun timeout _ => hrest timeout hgiven

end Config

namespace Client

variable {α : Type}

def discoveries (c : Client) : List (List Value × Value) := c.calls.filterMap SystemCall.commandRun?

def connections (c : Client) : List Text := c.calls.filterMap SystemCall.connectedPath?

def traffic (c : Client) : List (List Value × Value) × List Text := (c.discoveries, c.connections)

theorem keeps_traffic {x : Action α} (h : Keeps custody x) : Keeps traffic x := by
  intro c
  have hsame := congrArg traffic (h c)
  exact hsame

theorem traffic_called (call : SystemCall) (c : Client) :
    traffic (called call c) = ((traffic c).1 ++ call.commandRun?.toList,
      (traffic c).2 ++ call.connectedPath?.toList) := by
  cases call <;> simp [traffic, called, discoveries, connections, SystemCall.commandRun?,
    SystemCall.connectedPath?]

theorem keeps_traffic_call {call : SystemCall} (hrun : call.commandRun? = none)
    (hconnect : call.connectedPath? = none) : Keeps traffic (Client.call call) := by
  intro c
  change traffic (called call c) = traffic c
  rw [traffic_called, hrun, hconnect]
  simp [traffic]

theorem keeps_traffic_close : Keeps traffic close := by
  intro c
  cases hopen : c.isOpen with
  | false => rw [close_closed hopen]
  | true =>
    obtain ⟨-, hreleased, -⟩ := close_open hopen
    have htraffic := congrArg traffic hreleased
    exact htraffic.trans (keeps_traffic_call rfl rfl c)

/-- Once connected, a visit neither connects again nor runs a command. -/
theorem visit_traffic {call : Call} {message : Value} (h : call.request = .ok message)
    (target : Target) (c : Client) :
    traffic (settle (visit target call.perform) c).2 = traffic (settle (connect target) c).2 := by
  have hperform : Keeps traffic call.perform := by
    obtain ⟨rest, hrest, hasks⟩ := perform_asks h
    rw [hasks]
    exact keeps_traffic (keeps_bind (keeps_send message) fun _ => keeps_custody hrest)
  rw [visit, settle_bind]
  rcases settle (connect target) c with ⟨e | u, c'⟩
  · rfl
  · dsimp only
    rw [finally_close]
    exact (keeps_traffic_close _).trans (hperform c')

/-! Connecting. -/

theorem limited_traffic (timeout : Value) (c : Client) :
    traffic (limited timeout c) = traffic c := by
  by_cases hnull : timeout = .null
  · rw [hnull]
    rfl
  · rw [limited_given hnull]
    exact keeps_traffic_call rfl rfl c

theorem reaches_traffic {path : Text} {c : Client} {r : Except Failure Unit × Client}
    (h : Reaches (.text path) c r) : traffic r.2 = ((traffic c).1, (traffic c).2 ++ [path]) := by
  have htried : traffic (called (.connect path) c) = ((traffic c).1, (traffic c).2 ++ [path]) := by
    rw [traffic_called]
    simp [SystemCall.commandRun?, SystemCall.connectedPath?]
  cases h with
  | unwritten hpath => cases hpath
  | unfit hpath =>
    cases hpath
    exact htried
  | refused hpath =>
    cases hpath
    exact (keeps_traffic_call rfl rfl _).trans htried
  | unwrapped hpath =>
    cases hpath
    refine (@keeps_traffic_call .closeSocket rfl rfl _).trans ?_
    exact (@keeps_traffic_call .wrapSocket rfl rfl _).trans htried
  | opened hpath =>
    cases hpath
    exact (@keeps_traffic_call .wrapSocket rfl rfl _).trans htried

theorem connectPath_traffic (path : Text) (timeout : Value) (c : Client) :
    traffic (settle (connectPath (.text path) timeout) c).2 =
      ((traffic c).1, (traffic c).2 ++ c.host.tried timeout path) := by
  have hcreated : traffic (called .createSocket c) = traffic c := keeps_traffic_call rfl rfl c
  generalize hr : settle (connectPath (.text path) timeout) c = r
  have hends := hr ▸ connectPath_ends (.text path) timeout c
  cases hends with
  | uncreated hsocket =>
    rw [Host.tried_uncreated hsocket, List.append_nil]
    exact hcreated
  | unlimited _ hnull hfault =>
    rw [Host.tried_unlimited hnull hfault, List.append_nil]
    exact (keeps_traffic_call rfl rfl _).trans hcreated
  | reaches hsocket hlimit hreaches =>
    rw [Host.tried_reached hsocket hlimit, reaches_traffic hreaches, limited_traffic, hcreated]

theorem discover_traffic (binary timeout : Value) (c : Client) :
    let c' := (settle (discover binary timeout) c).2
    traffic c' = ((traffic c).1 ++ [([binary, .text "get-sockname"], timeout)], (traffic c).2) ∧
      c'.host = c.host := by
  intro c'
  have hsame := discover_unlogged binary timeout c
  have htraffic := congrArg traffic hsame
  have hhost := congrArg Client.host hsame
  refine ⟨?_, hhost⟩
  have hrun : traffic c' = traffic (called (.run [binary, .text "get-sockname"] timeout) c) :=
    htraffic
  rw [hrun, traffic_called]
  simp [SystemCall.commandRun?, SystemCall.connectedPath?]

def found (s : Settings) (c : Client) : Except Failure Text :=
  (settle (discover s.target.binary s.target.timeout) c).1

section

variable {s : Settings}

theorem connect_configured {path : Text} (h : s.sockname = some path) (c : Client) :
    traffic (settle (connect s.target) c).2 =
      ((traffic c).1, (traffic c).2 ++ c.host.tried s.target.timeout path) := by
  rw [connect_target_some h]
  exact connectPath_traffic path _ c

theorem connect_unconfigured (h : s.sockname = none) (c : Client) :
    traffic (settle (connect s.target) c).2 = ((traffic c).1 ++ [s.inquiry],
      (traffic c).2 ++ match found s c with
        | .ok path => c.host.tried s.target.timeout path
        | .error _ => []) := by
  obtain ⟨htraffic, hhost⟩ := discover_traffic s.target.binary s.target.timeout c
  rw [connect_target_none h, settle_bind, found]
  rcases hsettle : settle (discover s.target.binary s.target.timeout) c with ⟨e | path, c'⟩
  · rw [hsettle] at htraffic
    simp only [List.append_nil]
    exact htraffic
  · rw [hsettle] at htraffic hhost
    dsimp only at htraffic hhost ⊢
    rw [connectPath_traffic, htraffic, hhost]
    rfl

end

end Client

namespace Run

open FileWatch.Client (connections discoveries found settle traffic)
open FileWatch.Config (PathFrom)
open FileWatch.Command (Poses)

def final : Outcome → Run
  | .ok _ r | .error _ r => r

/-- The run from `start` comes to print the path: it prints what the screen writes for the path and
no more, with status zero, or the screen refuses the path and the run ends there. -/
def Shows (start : Run) (path : Text) (ended : Outcome) : Prop :=
  match start.screen.write (path ++ ("\n" : Text)) with
  | .ok t => status? ended = some 0 ∧ (final ended).stdout = start.stdout ++ t
  | .error _ => status? ended = none ∧ (final ended).stdout = start.stdout

theorem failed_final (e : Failure) (r : Run) :
    (failed e r).2.client = r.client ∧
      status? (.error (failed e r).1 (failed e r).2) ≠ some 0 := by
  unfold failed
  generalize ((Report.failure e.message).run r.errorScreen).run [] = result
  cases e.category?.isSome with
  | false => exact ⟨rfl, nofun⟩
  | true => cases result <;> exact ⟨rfl, nofun⟩

theorem tell_final (p : Report.Printer Unit) (r : Run) :
    (final ((tell p).run r)).client = r.client := by
  unfold tell EStateM.run
  dsimp only
  generalize p.run r.screen [] = result
  cases result <;> rfl

theorem tell_emit (t : Text) (r : Run) :
    (tell (Report.emit t)).run r = match r.screen.write t with
      | .ok w => .ok () { r with stdout := r.stdout ++ w }
      | .error e => .error (.report (.unprintable e [])) r := by
  have hwrite := Report.write_run r.screen [] t []
  unfold EStateM.run at hwrite
  unfold tell EStateM.run
  dsimp only
  rw [Report.emit, hwrite]
  cases r.screen.write t with
  | ok w => rfl
  | error e =>
    dsimp only
    rw [List.append_nil]

theorem tell_shows (path : Text) (o : SharedOptions) (start : Run) (c : Client) :
    Shows start path ((tell (Report.emit (path ++ ("\n" : Text)))).run (begun o start c)) := by
  have hscreen : (begun o start c).screen = start.screen := rfl
  rw [Shows, tell_emit, hscreen]
  cases start.screen.write (path ++ ("\n" : Text)) <;> exact ⟨rfl, rfl⟩

section

variable {environment : Environment} {files : Files} {words : List Text} {o : SharedOptions}
  {cmd : Command} (start : Run)

/-- An empty path comes from an option that is empty, or without the option from a source that
holds white space alone. -/
theorem configured_empty {s : Settings} (hs : Configured environment files o s) :
    s.sockname = some [] ↔ o.sockname = some [] ∨ o.sockname = none ∧ ∃ options,
      Config.load environment files = .ok options ∧
        PathFrom environment options.toRaw (some []) := by
  cases hs with
  | @loaded options s hload hsettings =>
    have hpath : PathFrom environment options.toRaw s.sockname :=
      Config.settings_path environment options.toRaw s hsettings
    have hempty : (∃ options, Config.load environment files = .ok options ∧
        PathFrom environment options.toRaw (some [])) ↔ s.sockname = some [] := by
      rw [hload]
      constructor
      · rintro ⟨_, ⟨⟩, hpath'⟩
        -- A path comes from one source, so this is the path of the settings.
        exact hpath'.unique hpath
      · intro h
        rw [h] at hpath
        exact ⟨options, rfl, hpath⟩
    rw [hempty, overridden]
    cases o.sockname <;> simp

theorem unconfigured_final (hwords : Accepts words o cmd)
    (h : ∀ s, ¬ Configured environment files o s) :
    let ended := (commandLine environment files words).run start
    (final ended).client = start.client ∧ status? ended ≠ some 0 := by
  intro ended
  subst ended
  rcases run_cases (r := start) hwords with ⟨e, -, hrun⟩ | ⟨s, -, -, -, hs, -⟩ |
    ⟨status, p, c', hcomes⟩
  · rw [hrun]
    exact ⟨rfl, nofun⟩
  · exact absurd hs (h s)
  · cases hcomes with
    | unset hload hsettings =>
      rw [accepted_run hwords, configure_unset hload hsettings, fail_bind, fail_run]
      generalize ((Report.failure _).run _).run [] = result
      cases result <;> exact ⟨rfl, nofun⟩
    | unfit hs | failed hs | achieved hs => exact absurd hs (h _)

theorem carried_final (hwords : Accepts words o cmd) {s : Settings} {errand : Errand}
    (hs : Configured environment files o s) (hposes : Poses cmd errand) :
    (final ((commandLine environment files words).run start)).client =
      (settle (errand.action s) start.client).2 := by
  rw [carried_run hwords hs hposes]
  rcases settle (errand.action s) start.client with ⟨e | p, c'⟩
  · exact (failed_final e _).1
  · exact tell_final p _

/-- A path that is configured and not empty is printed, and nothing is called. -/
theorem locate_configured_run (hwords : Accepts words o .sockname) {s : Settings}
    (hs : Configured environment files o s) {path : Text} (hpath : s.sockname = some path)
    (hne : path ≠ []) :
    let ended := (commandLine environment files words).run start
    traffic (final ended).client = traffic start.client ∧ Shows start path ended := by
  have haction : settle (Errand.locate.action s) start.client =
      (.ok (Report.emit (path ++ ("\n" : Text))), start.client) := by
    have hempty : path.isEmpty = false := by simpa using hne
    rw [Errand.action, hpath, Option.getD_some]
    dsimp only
    rw [hempty]
    rfl
  intro ended
  subst ended
  rw [carried_run hwords hs .sockname, haction]
  exact ⟨congrArg traffic (tell_final _ _), tell_shows path o start start.client⟩

/-- Else the discovery command is run, and the path that it finds is printed. -/
theorem locate_discovering_run (hwords : Accepts words o .sockname) {s : Settings}
    (hs : Configured environment files o s) (hnone : s.sockname.getD [] = []) :
    let ended := (commandLine environment files words).run start
    traffic (final ended).client =
        ((traffic start.client).1 ++ [s.inquiry], (traffic start.client).2) ∧
      (∀ path, found s start.client = .ok path → Shows start path ended) ∧
      ∀ e, found s start.client = .error e → status? ended ≠ some 0 := by
  have haction : Errand.locate.action s = (do
      let path ← Client.discover s.target.binary s.target.timeout
      pure (Report.emit (path ++ ("\n" : Text)))) := by
    rw [Errand.action, hnone]
    rfl
  intro ended
  subst ended
  obtain ⟨htraffic, -⟩ := Client.discover_traffic s.target.binary s.target.timeout start.client
  rw [carried_run hwords hs .sockname, haction, Client.settle_bind, found]
  rcases hsettle : settle (Client.discover s.target.binary s.target.timeout) start.client with
    ⟨e | path, c'⟩
  · rw [hsettle] at htraffic
    obtain ⟨hclient, hstatus⟩ := failed_final e (begun o start c')
    exact ⟨(congrArg traffic hclient).trans htraffic, fun _ h => (by cases h), fun _ _ => hstatus⟩
  · rw [hsettle] at htraffic
    refine ⟨(congrArg traffic (tell_final _ _)).trans htraffic, ?_, fun _ h => by cases h⟩
    rintro path' ⟨⟩
    exact tell_shows path o start c'

/-- What calls the daemon connects as the settings say. -/
theorem ask_run (hwords : Accepts words o cmd) {s : Settings}
    (hs : Configured environment files o s) {log : List LogRecord} {call : Client.Call}
    {report : Client.Answer → Report.Printer Unit} (hposes : Poses cmd (.ask log call report)) :
    let c := start.client
    traffic (final ((commandLine environment files words).run start)).client =
      traffic (settle (Client.connect s.target) { c with log := c.log ++ log }).2 := by
  intro c
  obtain ⟨message, hrequest, -⟩ := Command.poses_message hposes
  have hvisit := Client.visit_traffic hrequest s.target { c with log := c.log ++ log }
  rw [carried_final start hwords hs hposes, ← hvisit]
  have haction : settle ((Errand.ask log call report).action s) c =
      settle (report <$> Client.visit s.target call.perform) { c with log := c.log ++ log } := rfl
  rw [haction, map_eq_pure_bind, Client.settle_bind]
  rcases settle (Client.visit s.target call.perform) { c with log := c.log ++ log } with
    ⟨e | a, c'⟩ <;> rfl

end

/-- Two runs from one start agree on the socket. They run the same discovery commands; and the
second connects to the very path that the first comes to print, or the first prints none and the
second connects to none. -/
inductive Agree (start : Run) (timeout : Value) (located asked : Outcome) : Prop where
  | same {path} : discoveries (final asked).client = discoveries (final located).client →
      Shows start path located →
      connections (final asked).client = start.client.host.tried timeout path →
      Agree start timeout located asked
  | neither : discoveries (final asked).client = discoveries (final located).client →
      status? located ≠ some 0 → connections (final asked).client = [] →
      Agree start timeout located asked

theorem Agree.discoveries {start : Run} {timeout : Value} {located asked : Outcome}
    (h : Agree start timeout located asked) :
    Client.discoveries (final asked).client = Client.discoveries (final located).client := by
  cases h <;> assumption

/-- Options that do not differ in what they set give the same settings. -/
theorem Configured.congr {environment : Environment} {files : Files} {o o' : SharedOptions}
    {s : Settings} (hsockname : o'.sockname = o.sockname) (htimeout : o'.timeout = o.timeout)
    (hs : Configured environment files o s) : Configured environment files o' s := by
  cases hs with
  | loaded hload hsettings =>
    have ho : overridden o = overridden o' := by
      funext s
      rw [overridden, overridden, hsockname, htimeout]
    rw [ho]
    exact .loaded hload hsettings

section

variable {environment : Environment} {files : Files} (start : Run) {words words' : List Text}
  {o o' : SharedOptions} {cmd : Command} {log : List LogRecord} {call : Client.Call}
  {report : Client.Answer → Report.Printer Unit} {s : Settings}
  (hstart : traffic start.client = ([], [])) (hlocates : Accepts words o .sockname)
  (hasks : Accepts words' o' cmd) (hposes : Poses cmd (.ask log call report))
  (hs : Configured environment files o s) (hs' : Configured environment files o' s)

include hstart hlocates hasks hposes hs hs'

theorem agree_configured {path : Text} (hpath : s.sockname = some path) (hne : path ≠ []) :
    Agree start s.target.timeout ((commandLine environment files words).run start)
      ((commandLine environment files words').run start) := by
  obtain ⟨hlocated, hshows⟩ := locate_configured_run start hlocates hs hpath hne
  have hasked := (ask_run start hasks hs' hposes).trans
    (Client.connect_configured hpath _)
  refine .same ?_ hshows ?_
  · exact (congrArg Prod.fst hasked).trans (congrArg Prod.fst hlocated).symm
  · refine (congrArg Prod.snd hasked).trans ?_
    change (traffic start.client).2 ++ _ = _
    rw [hstart, List.nil_append]

theorem agree_discovering (hnone : s.sockname = none) :
    Agree start s.target.timeout ((commandLine environment files words).run start)
      ((commandLine environment files words').run start) := by
  obtain ⟨hlocated, hshows, hfails⟩ :=
    locate_discovering_run start hlocates hs (by rw [hnone]; rfl)
  -- The log is longer by the time the second run looks for the socket.
  have hfound : found s { start.client with log := start.client.log ++ log } =
      found s start.client :=
    (Client.discover_ends _ _ _).unique (Client.discover_ends _ _ start.client)
  have hasked := (ask_run start hasks hs' hposes).trans
    (Client.connect_unconfigured hnone _)
  rw [hfound] at hasked
  have hdiscoveries := (congrArg Prod.fst hasked).trans (congrArg Prod.fst hlocated).symm
  have hconnections := congrArg Prod.snd hasked
  change _ = (traffic start.client).2 ++ _ at hconnections
  rw [hstart, List.nil_append] at hconnections
  cases hresult : found s start.client with
  | ok path =>
    rw [hresult] at hconnections
    exact .same hdiscoveries (hshows path hresult) hconnections
  | error e =>
    rw [hresult] at hconnections
    exact .neither hdiscoveries (hfails e hresult) hconnections

/-- An empty path counts as none when the path is to be printed, and as a path when a command
connects. -/
theorem empty_path_calls (hpath : s.sockname = some []) :
    discoveries (final ((commandLine environment files words).run start)).client = [s.inquiry] ∧
    discoveries (final ((commandLine environment files words').run start)).client = [] ∧
    connections (final ((commandLine environment files words').run start)).client =
      start.client.host.tried s.target.timeout [] := by
  obtain ⟨hlocated, -⟩ :=
    locate_discovering_run start hlocates hs (by rw [hpath]; rfl)
  have hasked := (ask_run start hasks hs' hposes).trans
    (Client.connect_configured hpath _)
  change _ = ((traffic start.client).1, (traffic start.client).2 ++ _) at hasked
  rw [hstart] at hlocated hasked
  exact ⟨congrArg Prod.fst hlocated, congrArg Prod.fst hasked, congrArg Prod.snd hasked⟩

end

end Run

end FileWatch
