import FileWatch.Proofs.Calls
/-!
Steps of a session. The holder of a client sends, reads, asks and closes; between steps the daemon's
bytes come in and errors are armed. What a step leaves alone is said through views: receiving
changes nothing of what is sent, and nothing but connecting and closing touches the socket.
-/

namespace FileWatch.Client

variable {α β γ : Type}

/-- However the action ends, it leaves the view of the client as it was. -/
def Keeps (view : Client → γ) (x : Action α) : Prop := ∀ c, view (settle x c).2 = view c

section

variable {view : Client → γ}

theorem settle_bind (x : Action α) (f : α → Action β) (c : Client) :
    settle (x >>= f) c = match settle x c with
      | (.ok a, c') => settle (f a) c'
      | (.error e, c') => (.error e, c') := by
  cases h : x.run c with
  | ok a c' => rw [settle, run_bind_ok h, settle, h]; rfl
  | error e c' => rw [settle, run_bind_error h, settle, h]

theorem keeps_pure (a : α) : Keeps view (pure a : Action α) := fun _ => rfl

theorem keeps_throw (e : Failure) : Keeps view (throw e : Action α) := fun _ => rfl

theorem keeps_get : Keeps view (get : Action Client) := fun _ => rfl

theorem keeps_lift {ε : Type} (failure : ε → Failure) (r : Except ε α) :
    Keeps view (lift failure r) := by
  intro c
  cases r <;> rfl

theorem keeps_bind {x : Action α} {f : α → Action β} (hx : Keeps view x)
    (hf : ∀ a, Keeps view (f a)) : Keeps view (x >>= f) := by
  intro c
  rw [settle_bind]
  have hview := hx c
  rcases hsettle : settle x c with ⟨e | a, c'⟩
  · rw [hsettle] at hview
    exact hview
  · rw [hsettle] at hview
    exact (hf a c').trans hview

theorem keeps_requireOpen : Keeps view requireOpen := by
  refine keeps_bind keeps_get ?_
  intro c
  cases c.isOpen
  · exact keeps_throw _
  · exact keeps_pure _

end

def custody (c : Client) : Client := { c with log := [], stream := {} }

@[simp]
theorem custody_isOpen (c : Client) : (custody c).isOpen = c.isOpen := rfl

def sending (c : Client) : Client :=
  { c with log := [], stream := { c.stream with incoming := [], readError := none } }

theorem keeps_custody {x : Action α} (h : Keeps sending x) : Keeps custody x := by
  intro c
  have hsame := congrArg custody (h c)
  exact hsame

def outbox (c : Client) : Bytes × Bytes := (c.stream.sent, c.stream.pending)

theorem keeps_outbox {x : Action α} (h : Keeps sending x) : Keeps outbox x := by
  intro c
  have hsame := congrArg outbox (h c)
  exact hsame

theorem keeps_record (level : Level) (message : Text) : Keeps sending (record level message) :=
  fun _ => rfl

theorem keeps_accept (r : Except Reply.Error α) : Keeps sending (accept r) := by
  cases r with
  | ok a => exact keeps_pure a
  | error e => cases e <;> exact fun _ => rfl

theorem readFrame_receives (s : Stream) :
    { (Stream.readFrame s).2 with incoming := [], readError := none } =
      { s with incoming := [], readError := none } := by
  rw [Stream.readFrame]
  cases Stream.gather [] (Stream.lines s.incoming) with
  | complete frame rest => rfl
  | overlong digits rest => rfl
  | exhausted frame =>
    dsimp only
    cases s.readError <;> rfl

theorem keeps_readFrame : Keeps sending (onStream Stream.readFrame) := by
  intro c
  have hstream := readFrame_receives c.stream
  change sending { c with stream := (Stream.readFrame c.stream).2 } = sending c
  rw [sending, hstream]
  rfl

theorem keeps_read : Keeps sending read := by
  refine keeps_bind keeps_requireOpen fun _ => ?_
  refine keeps_bind keeps_readFrame fun _ => ?_
  refine keeps_bind (keeps_lift _ _) fun _ => ?_
  exact keeps_bind (keeps_record _ _) fun _ => keeps_lift _ _

theorem keeps_send (message : Value) : Keeps custody (send message) := by
  refine keeps_bind keeps_requireOpen fun _ => ?_
  refine keeps_bind (keeps_lift _ _) fun _ => ?_
  refine keeps_bind (fun _ => rfl) fun _ => ?_
  refine keeps_bind (keeps_lift _ _) fun _ => ?_
  refine keeps_bind (fun _ => rfl) fun _ => ?_
  exact keeps_bind (keeps_lift _ _) fun _ => keeps_custody (keeps_record _ _)

def called (call : SystemCall) (c : Client) : Client := { c with calls := c.calls ++ [call] }

theorem run_call (call : SystemCall) (c : Client) :
    (Client.call call).run c = .ok () (called call c) := rfl

def released (c : Client) : Client := called .closeSocket { c with isOpen := false }

/-- A stream that drains sends what it holds when it is closed, if its flush works. -/
theorem close_sends (s : Stream) : (s.close.2.sent, s.close.2.pending) =
    if s.drains && s.flushError.isNone then (s.sent ++ s.pending, []) else (s.sent, s.pending) := by
  have hrelease (s : Stream) : (s.release.2.sent, s.release.2.pending) = (s.sent, s.pending) := by
    rw [Stream.release]
    cases s.closeError <;> rfl
  rw [Stream.close]
  cases hdrains : s.drains with
  | false => exact hrelease s
  | true =>
    cases hpending : s.pending with
    | nil =>
      refine (hrelease s).trans ?_
      rw [hpending, List.append_nil, ite_self]
    | cons b rest =>
      simp only [List.isEmpty_cons, Bool.not_false, Bool.and_self, if_true, Stream.flush]
      cases hflush : s.flushError with
      | some e => simp [hpending]
      | none => simpa [hpending] using hrelease _

/-- An error of the stream does not keep its socket from being closed. -/
theorem close_open {c : Client} (h : c.isOpen = true) :
    (settle close c).1 = .ok () ∧ custody (settle close c).2 = released (custody c) ∧
      (settle close c).2.stream = (Stream.close c.stream).2 := by
  rcases hclose : Stream.close c.stream with ⟨e | _, s⟩ <;>
    · simp only [settle, close, EStateM.run_bind, EStateM.run_get, h, if_true, EStateM.run_modify,
        run_onStream, hclose, run_call, run_record]
      exact ⟨trivial, rfl, rfl⟩

/-! A closed connection. -/

theorem requireOpen_closed {c : Client} (h : c.isOpen = false) :
    settle requireOpen c = (.error .closed, c) := by
  simp [settle, requireOpen, h]

theorem send_closed {c : Client} (h : c.isOpen = false) (message : Value) :
    settle (send message) c = (.error .closed, c) := by
  rw [send, settle_bind, requireOpen_closed h]

theorem read_closed {c : Client} (h : c.isOpen = false) :
    settle read c = (.error .closed, c) := by
  rw [read, settle_bind, requireOpen_closed h]

theorem close_closed {c : Client} (h : c.isOpen = false) : settle close c = (.ok (), c) := by
  simp [settle, close, h]

/-! A call whose message can be built sends it and then only receives. -/

/-- An action that sends a message and only receives from then on. -/
def Asks (x : Action α) (message : Value) : Prop :=
  ∃ rest : Action α, Keeps sending rest ∧ x = (do send message; rest)

theorem asks_bind {x : Action α} {f : α → Action β} {message : Value} (hx : Asks x message)
    (hf : ∀ a, Keeps sending (f a)) : Asks (x >>= f) message := by
  obtain ⟨rest, hrest, rfl⟩ := hx
  exact ⟨rest >>= f, keeps_bind hrest hf, bind_assoc _ _ _⟩

theorem pathCommand_asks (word note : Text) {path message : Value}
    (h : pathRequest word path = .ok message) : Asks (pathCommand word note path) message := by
  obtain ⟨p, hpath, rfl⟩ := pathRequest_ok h
  refine ⟨do let _ ← accept (Reply.envelope word (← read)); record .info (note ++ p), ?_, ?_⟩
  · refine keeps_bind keeps_read fun reply => ?_
    exact keeps_bind (keeps_accept _) fun _ => keeps_record _ _
  · rw [pathCommand, display, hpath]
    rfl

theorem query_asks {path expression fields message : Value}
    (h : queryRequest path expression fields = .ok message) :
    Asks (query path expression fields) message := by
  refine ⟨_, ?_, by rw [query, h]; rfl⟩
  refine keeps_bind keeps_read fun reply => ?_
  refine keeps_bind (keeps_accept _) fun result => ?_
  refine keeps_bind (keeps_lift _ _) fun path => ?_
  exact keeps_bind (keeps_record _ _) fun _ => keeps_pure _

theorem perform_asks {call : Call} {message : Value} (h : call.request = .ok message) :
    Asks call.perform message := by
  cases call with
  | watch path =>
    rw [Call.perform, watch_eq]
    exact asks_bind (pathCommand_asks _ _ h) fun _ => keeps_pure _
  | watchDel path =>
    rw [Call.perform, watchDel_eq]
    exact asks_bind (pathCommand_asks _ _ h) fun _ => keeps_pure _
  | watchList =>
    cases h
    refine asks_bind ⟨_, ?_, rfl⟩ fun _ => keeps_pure _
    exact keeps_bind keeps_read fun _ => keeps_accept _
  | query path expression fields => exact asks_bind (query_asks h) fun _ => keeps_pure _

theorem pathCommand_unbuilt (word note : Text) {path : Value} {e : Failure}
    (h : pathRequest word path = .error e) : pathCommand word note path = throw e := by
  cases hpath : path.display with
  | ok p =>
    rw [pathRequest, hpath] at h
    cases h
  | error tooLong =>
    rw [pathRequest, hpath] at h
    cases h
    rw [pathCommand, display, hpath]
    rfl

theorem query_unbuilt {path expression fields : Value} {e : Failure}
    (h : queryRequest path expression fields = .error e) :
    query path expression fields = throw e := by
  rw [query, h]
  rfl

/-- A call whose message cannot be built does nothing. -/
theorem perform_unbuilt {call : Call} {e : Failure} (h : call.request = .error e) :
    call.perform = throw e := by
  cases call with
  | watch path =>
    rw [Call.perform, watch_eq, pathCommand_unbuilt _ _ h]
    rfl
  | watchDel path =>
    rw [Call.perform, watchDel_eq, pathCommand_unbuilt _ _ h]
    rfl
  | watchList => cases h
  | query path expression fields =>
    rw [Call.perform, query_unbuilt h]
    rfl

/-! Steps, and what happens between them. -/

inductive Step where
  | send (message : Value)
  | read
  | ask (call : Call)
  | enter
  | close
  | exit
  | exitConnection

namespace Step

def perform : Step → Action Unit
  | send message => Client.send message
  | read => do let _ ← Client.read
  | ask call => do let _ ← call.perform
  | enter => pure ()
  | close | exit | exitConnection => Client.close

def closes : Step → Bool
  | close | exit | exitConnection => true
  | _ => false

def message? : Step → Option Value
  | send message => some message
  | ask call => call.request.toOption
  | _ => none

/-- A step that needs the connection and has everything else. A call lacks its message when that
cannot be built from its arguments; a path that is a text can always be put into one. -/
def Uses (s : Step) : Prop := s = read ∨ ∃ message, s.message? = some message

end Step

theorem step_asks {s : Step} {message : Value} (h : s.message? = some message) :
    Asks s.perform message := by
  cases s with
  | send sent =>
    cases h
    exact ⟨pure (), keeps_pure _, (bind_pure_unit).symm⟩
  | ask call =>
    refine asks_bind (perform_asks ?_) fun _ => keeps_pure _
    cases hrequest : call.request with
    | ok built =>
      rw [Step.message?, hrequest] at h
      cases h
      rfl
    | error e =>
      rw [Step.message?, hrequest] at h
      cases h
  | read | enter | close | exit | exitConnection => cases h

/-- A step of the holder, bytes that come in, or an error that is armed for the next call of its
kind. -/
inductive Event where
  | step (s : Step)
  | feed (bytes : Bytes)
  | arm (call : StreamCall) (e : OsError)

namespace Event

def happen : Event → Client → Client
  | step s, c => (settle s.perform c).2
  | feed bytes, c => { c with stream := c.stream.feed bytes }
  | arm call e, c => { c with stream := c.stream.arm call e }

def closes : Event → Bool
  | step s => s.closes
  | _ => false

end Event

def advance (c : Client) (events : List Event) : Client :=
  events.foldl (fun c event => event.happen c) c

theorem keeps_step {s : Step} (h : s.closes = false) : Keeps custody s.perform := by
  cases s with
  | send message => exact keeps_send message
  | read => exact keeps_custody (keeps_bind keeps_read fun _ => keeps_pure _)
  | ask call =>
    refine keeps_bind ?_ fun _ => keeps_pure _
    cases hrequest : call.request with
    | ok message =>
      obtain ⟨rest, hrest, hperform⟩ := perform_asks hrequest
      rw [hperform]
      exact keeps_bind (keeps_send message) fun _ => keeps_custody hrest
    | error e =>
      rw [perform_unbuilt hrequest]
      exact keeps_throw e
  | enter => exact keeps_pure _
  | close | exit | exitConnection => cases h

theorem event_custody {event : Event} (h : event.closes = false) (c : Client) :
    custody (event.happen c) = custody c := by
  cases event with
  | step s => exact keeps_step h c
  | feed bytes => rfl
  | arm call e => cases call <;> rfl

end FileWatch.Client
