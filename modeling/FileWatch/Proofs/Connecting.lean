import FileWatch.Proofs.Steps
/-!
What connecting comes to. It ends at the first of its calls that fails, or with an open connection;
each end is told with the calls that were made by then. What holds of connecting is read off these
ends.
-/

namespace FileWatch.Client

variable {α γ : Type}

def unlogged (c : Client) : Client := { c with log := [] }

theorem keeps_unlogged {view : Client → γ} {x : Action α} (h : Keeps unlogged x)
    (hview : ∀ c, view (unlogged c) = view c) : Keeps view x := by
  intro c
  rw [← hview, h c, hview]

/-! The discovery command. -/

/-- The discovery command is run, and whatever it prints, no more is done than to log it. -/
theorem discover_runs (binary timeout : Value) : ∃ rest, Keeps unlogged rest ∧
    discover binary timeout = (do call (.run [binary, .text "get-sockname"] timeout); rest) := by
  refine ⟨_, ?_, rfl⟩
  refine keeps_bind keeps_get fun c => ?_
  cases c.host.discovery with
  | failed e => exact keeps_throw _
  | expired limit =>
    refine keeps_bind (keeps_lift _ _) fun _ => ?_
    exact keeps_bind (keeps_lift _ _) fun _ => keeps_throw _
  | broken e => exact keeps_throw _
  | finished status output errors =>
    have hfound : Keeps unlogged (do
        let sockname ← lift id (socknameOf output)
        record .debug (("watchman get-sockname -> " : Text) ++ sockname)
        pure sockname) := by
      refine keeps_bind (keeps_lift _ _) fun _ => ?_
      exact keeps_bind (fun _ => rfl) fun _ => keeps_pure _
    -- A status other than zero throws in front of what would read the output.
    dsimp only
    split
    · exact keeps_bind (keeps_throw _) fun _ => hfound
    · exact hfound

theorem discover_unlogged (binary timeout : Value) (c : Client) :
    unlogged (settle (discover binary timeout) c).2 =
      unlogged (called (.run [binary, .text "get-sockname"] timeout) c) := by
  obtain ⟨rest, hrest, hdiscover⟩ := discover_runs binary timeout
  rw [hdiscover, settle_bind, settle, run_call]
  exact hrest _

/-- Where the socket's path is not given, the discovery command is run first. -/
theorem connect_discovering (timeout binary : Value) :
    connect ⟨.null, timeout, binary⟩ = (do
      let name ← discover binary timeout
      connectPath (.text name) timeout) := bind_map_left _ _ _

theorem connect_located {path : Value} (h : path ≠ .null) (timeout binary : Value) :
    connect ⟨path, timeout, binary⟩ = connectPath path timeout := by
  cases path with
  | null => exact absurd rfl h
  | _ => rfl

/-! The socket. -/

def reach (path : Value) : Action Unit := do
  let path ← display path
  call (.connect path)
  if let some e := (← get).host.pathFault then throw (.call e)
  if let some e := (← get).host.connectError then
    call .closeSocket
    throw (.connect e path)
  wrap path
  record .info (("Connected to watchman at " : Text) ++ path)

/-- The ends of what is done with a socket. Only the failures of the system close it. -/
inductive Reaches (path : Value) (c : Client) : Except Failure Unit × Client → Prop where
  | unwritten {e} : path.display = .error e → Reaches path c (.error (.tooLong e), c)
  | unfit {p e} : path.display = .ok p → c.host.pathFault = some e →
      Reaches path c (.error (.call e), called (.connect p) c)
  | refused {p e} : path.display = .ok p → c.host.pathFault = none →
      c.host.connectError = some e →
      Reaches path c (.error (.connect e p), called .closeSocket (called (.connect p) c))
  | unwrapped {p} : path.display = .ok p → c.host.pathFault = none →
      c.host.connectError = none → c.host.wrapError ≠ none → Reaches path c
        (.error (.wrap p), called .closeSocket (called .wrapSocket (called (.connect p) c)))
  | opened {p log} : path.display = .ok p → c.host.pathFault = none →
      c.host.connectError = none → c.host.wrapError = none → Reaches path c
        (.ok (), { called .wrapSocket (called (.connect p) c) with path := p, isOpen := true, log })

theorem reach_ends (path : Value) (c : Client) : Reaches path c (settle (reach path) c) := by
  cases hpath : path.display with
  | error e =>
    unfold settle reach
    simp only [EStateM.run_bind, display, hpath, run_lift_error]
    exact .unwritten hpath
  | ok p =>
    unfold settle reach wrap
    simp only [EStateM.run_bind, display, hpath, run_lift_ok, run_call, EStateM.run_get, called]
    cases hfault : c.host.pathFault with
    | some e => exact .unfit hpath hfault
    | none =>
      simp only [EStateM.run_bind, EStateM.run_get]
      cases hconnect : c.host.connectError with
      | some e => exact .refused hpath hfault hconnect
      | none =>
        simp only [EStateM.run_bind, run_call, called, EStateM.run_get]
        cases hwrap : c.host.wrapError with
        | some e => exact .unwrapped hpath hfault hconnect (by simp [hwrap])
        | none => exact .opened hpath hfault hconnect hwrap

def limited (timeout : Value) (c : Client) : Client :=
  match timeout with
  | .null => c
  | limit => called (.setTimeout limit) c

theorem limited_given {timeout : Value} (h : timeout ≠ .null) (c : Client) :
    limited timeout c = called (.setTimeout timeout) c := by
  cases timeout with
  | null => exact absurd rfl h
  | _ => rfl

theorem limited_host (timeout : Value) (c : Client) : (limited timeout c).host = c.host := by
  cases timeout <;> rfl

inductive Dials (path timeout : Value) (c : Client) : Except Failure Unit × Client → Prop where
  | uncreated {e} : c.host.socketError = some e →
      Dials path timeout c (.error (.socket e), called .createSocket c)
  | unlimited {e} : c.host.socketError = none → timeout ≠ .null → c.host.limitFault = some e →
      Dials path timeout c (.error (.call e), called (.setTimeout timeout) (called .createSocket c))
  | reaches {r} : c.host.socketError = none → (timeout ≠ .null → c.host.limitFault = none) →
      Reaches path (limited timeout (called .createSocket c)) r → Dials path timeout c r

theorem settle_limitSocket (limit : Value) (c : Client) :
    settle (limitSocket limit) c = match c.host.limitFault with
      | some e => (.error (.call e), called (.setTimeout limit) c)
      | none => (.ok (), called (.setTimeout limit) c) := by
  unfold settle limitSocket
  simp only [EStateM.run_bind, run_call, EStateM.run_get, called]
  cases c.host.limitFault <;> rfl

theorem connectPath_eq (path timeout : Value) :
    connectPath path timeout = (do
      call .createSocket
      if let some e := (← get).host.socketError then throw (.socket e)
      match timeout with
      | .null => reach path
      | limit => do
        limitSocket limit
        reach path) := rfl

theorem connectPath_given {timeout : Value} (h : timeout ≠ .null) (path : Value) :
    connectPath path timeout = (do
      call .createSocket
      if let some e := (← get).host.socketError then throw (.socket e)
      limitSocket timeout
      reach path) := by
  cases timeout with
  | null => exact absurd rfl h
  | _ => rfl

theorem connectPath_ends (path timeout : Value) (c : Client) :
    Dials path timeout c (settle (connectPath path timeout) c) := by
  by_cases hnull : timeout = .null
  · subst hnull
    rw [connectPath_eq]
    unfold settle
    simp only [EStateM.run_bind, run_call, EStateM.run_get, called]
    cases hsocket : c.host.socketError with
    | some e => exact .uncreated hsocket
    | none => exact .reaches hsocket (fun h => absurd rfl h) (reach_ends path _)
  · rw [connectPath_given hnull]
    unfold settle
    simp only [EStateM.run_bind, run_call, EStateM.run_get, called]
    cases hsocket : c.host.socketError with
    | some e => exact .uncreated hsocket
    | none =>
      change Dials path timeout c (settle (limitSocket timeout >>= fun _ => reach path)
        (called .createSocket c))
      rw [settle_bind, settle_limitSocket]
      cases hfault : (called .createSocket c).host.limitFault with
      | some e => exact .unlimited hsocket hnull hfault
      | none =>
        have hreach := reach_ends path (limited timeout (called .createSocket c))
        rw [limited_given hnull] at hreach
        exact .reaches hsocket (fun _ => hfault) (limited_given hnull _ ▸ hreach)

end FileWatch.Client
