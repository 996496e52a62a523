import FileWatch.Proofs.Answers
import FileWatch.Proofs.Reader
/-!
The calls that ask the daemon. A call that has a frame sends it and takes one whole reply, whatever
it makes of that.
-/

namespace FileWatch.Client

open FileWatch.Stream (ReplyBytes)

variable {α β : Type}

def pathRequest (word : Text) (path : Value) : Except Failure Value := do
  let path ← path.display.mapError .tooLong
  pure (simpleCommand [word, path])

def framed (request : Except Failure Value) : Except Failure Bytes := do
  let message ← request
  (Frame.encode message).mapError encodeFailure

inductive Call where
  | watch (path : Value)
  | watchDel (path : Value)
  | watchList
  | query (path expression fields : Value)

inductive Answer where
  | done
  | roots (roots : WatchedRoots)
  | files (answer : QueryAnswer)

namespace Call

def perform : Call → Action Answer
  | watch path => do
    Client.watch path
    pure .done
  | watchDel path => do
    Client.watchDel path
    pure .done
  | watchList => do
    let roots ← Client.watchList
    pure (.roots roots)
  | query path expression fields => do
    let answer ← Client.query path expression fields
    pure (.files answer)

def request : Call → Except Failure Value
  | watch path => pathRequest "watch" path
  | watchDel path => pathRequest "watch-del" path
  | watchList => pure (simpleCommand ["watch-list"])
  | query path expression fields => queryRequest path expression fields

def frame (call : Call) : Except Failure Bytes := framed call.request

def decode : Call → Value → Except Reply.Error Answer
  | watch _, v => do
    let _ ← Reply.envelope "watch" v
    pure .done
  | watchDel _, v => do
    let _ ← Reply.envelope "watch-del" v
    pure .done
  | watchList, v => do
    let roots ← Reply.watchedRoots v
    pure (.roots roots)
  | query .., v => do
    let answer ← Reply.queryAnswer v
    pure (.files answer)

theorem decode_judged (call : Call) {v : Value} (h : Json.Decoded v) :
    Reply.Judged (fun _ => True) (call.decode v) := by
  cases call with
  | watch => exact (Reply.envelope_judged "watch" rfl h).bind fun _ _ => .ok trivial
  | watchDel => exact (Reply.envelope_judged "watch-del" rfl h).bind fun _ _ => .ok trivial
  | watchList => exact (Reply.watchedRoots_judged h).bind fun _ _ => .ok trivial
  | query => exact (Reply.queryAnswer_judged h).bind fun _ _ => .ok trivial

end Call

/-- What an action ends with, a failure or a result, and the client after it. -/
def settle (x : Action α) (c : Client) : Except Failure α × Client :=
  match x.run c with
  | .ok a c' => (.ok a, c')
  | .error e c' => (.error e, c')

/-- An action that ends with `outcome` and leaves the client open with the stream `s`. -/
def Yields (x : Action α) (c : Client) (outcome : Except Failure α) (s : Stream) : Prop :=
  ∃ c', settle x c = (outcome, c') ∧ c'.isOpen = true ∧ c'.stream = s

theorem yields_ok {x : Action α} {c c' : Client} {a : α} {s : Stream} (h : x.run c = .ok a c')
    (hopen : c'.isOpen = true) (hs : c'.stream = s) : Yields x c (.ok a) s :=
  ⟨c', by rw [settle, h], hopen, hs⟩

/-- What follows a step is a matter of what the step leaves. -/
theorem yields_step {x : Action α} {f : α → Action β} {a : α} {c c' : Client}
    {outcome : Except Failure β} {s : Stream} (h : x.run c = .ok a c')
    (hf : Yields (f a) c' outcome s) : Yields (x >>= f) c outcome s := by
  rw [Yields, settle, run_bind_ok h]
  exact hf

theorem yields_bind_ok {x : Action α} {f : α → Action β} {a : α} {c : Client}
    {outcome : Except Failure β} {s s' : Stream} (h : Yields x c (.ok a) s)
    (hf : ∀ c', c'.isOpen = true → c'.stream = s → Yields (f a) c' outcome s') :
    Yields (x >>= f) c outcome s' := by
  obtain ⟨c', hx, hopen, hs⟩ := h
  rw [settle] at hx
  cases hrun : x.run c with
  | ok a' c'' =>
    rw [hrun] at hx
    cases hx
    exact yields_step hrun (hf c' hopen hs)
  | error e c'' =>
    rw [hrun] at hx
    cases hx

theorem yields_bind_error {x : Action α} {f : α → Action β} {e : Failure} {c : Client} {s : Stream}
    (h : Yields x c (.error e) s) : Yields (x >>= f) c (.error e) s := by
  obtain ⟨c', hx, hopen, hs⟩ := h
  rw [settle] at hx
  cases hrun : x.run c with
  | ok a c'' =>
    rw [hrun] at hx
    cases hx
  | error e' c'' =>
    rw [hrun] at hx
    cases hx
    exact ⟨c', by rw [settle, run_bind_error hrun], hopen, hs⟩

/-- A reply that is not accepted is logged at most. -/
theorem accept_yields (r : Except Reply.Error α) {c : Client} (hopen : c.isOpen = true) :
    Yields (accept r) c (r.mapError .reply) c.stream := by
  cases r with
  | ok a => exact yields_ok rfl hopen rfl
  | error e => cases e <;> exact ⟨_, rfl, hopen, rfl⟩

/-- The stream once a frame has been sent and the bytes in front of `R` have been read. -/
def exchanged (s : Stream) (frame R : Bytes) : Stream :=
  { s with sent := s.sent ++ frame, incoming := R }

/-- A request and its reply: the frame has been sent and the reply is gone from the stream. -/
theorem exchange_yields {message v : Value} {frame b R : Bytes} {k : Value → Action α} {c : Client}
    {outcome : Except Failure α} {s : Stream} (h : Ready c)
    (hframe : Frame.encode message = .ok frame) (hreply : ReplyBytes b v)
    (hc : c.stream.incoming = b ++ R)
    (hk : ∀ c', c'.isOpen = true → c'.stream = exchanged c.stream frame R →
      Yields (k v) c' outcome s) :
    Yields (send message >>= fun _ => read >>= k) c outcome s := by
  have hsend := send_run h message
  rw [hframe] at hsend
  refine yields_step hsend ?_
  obtain ⟨bytes, hread⟩ := read_reply (c := announced frame
    { c with stream := { c.stream with sent := c.stream.sent ++ frame } }) h.isOpen hreply hc
  exact yields_step hread (hk _ h.isOpen rfl)

theorem yields_map {x : Action α} {c : Client} {outcome : Except Failure α} {s : Stream}
    (f : α → β) (h : Yields x c outcome s) :
    Yields (do let a ← x; pure (f a)) c (do let a ← outcome; pure (f a)) s := by
  cases outcome with
  | ok a =>
    refine yields_bind_ok h ?_
    intro c' hopen hs
    exact yields_ok rfl hopen hs
  | error e => exact yields_bind_error h

/-! The calls that have a frame. -/

def pathCommand (word note : Text) (path : Value) : Action Unit := do
  let path ← display path
  send (simpleCommand [word, path])
  let _ ← accept (Reply.envelope word (← read))
  record .info (note ++ path)

theorem watch_eq (path : Value) : watch path = pathCommand "watch" "Watching " path := rfl

theorem watchDel_eq (path : Value) :
    watchDel path = pathCommand "watch-del" "Stopped watching " path := rfl

section

variable {c : Client} {frame b R : Bytes} {v : Value}

theorem framed_ok {request : Except Failure Value} (h : framed request = .ok frame) :
    ∃ message, request = .ok message ∧ Frame.encode message = .ok frame := by
  cases request with
  | error e => cases h
  | ok message =>
    refine ⟨message, rfl, ?_⟩
    change (Frame.encode message).mapError encodeFailure = .ok frame at h
    cases hencode : Frame.encode message with
    | error e => rw [hencode] at h; cases h
    | ok bytes => rw [hencode] at h; cases h; rfl

theorem pathRequest_ok {word : Text} {path message : Value}
    (h : pathRequest word path = .ok message) :
    ∃ p, path.display = .ok p ∧ message = simpleCommand [word, p] := by
  cases hpath : path.display with
  | error e => rw [pathRequest, hpath] at h; cases h
  | ok p => rw [pathRequest, hpath] at h; cases h; exact ⟨p, rfl, rfl⟩

theorem mapError_map {ε ε' : Type} (r : Except ε α) (g : ε → ε') (f : α → β) :
    (do let a ← r; pure (f a)).mapError g = (do let a ← r.mapError g; pure (f a)) := by
  cases r <;> rfl

theorem pathCommand_yields {path : Value} (word note : Text) (h : Ready c)
    (hframe : framed (pathRequest word path) = .ok frame) (hreply : ReplyBytes b v)
    (hc : c.stream.incoming = b ++ R) :
    Yields (pathCommand word note path) c
      ((do let _ ← Reply.envelope word v; pure ()).mapError .reply)
      (exchanged c.stream frame R) := by
  obtain ⟨message, hrequest, hencode⟩ := framed_ok hframe
  obtain ⟨p, hpath, rfl⟩ := pathRequest_ok hrequest
  have hdisplay : (display path).run c = .ok p c := by rw [display, hpath, run_lift_ok]
  refine yields_step hdisplay (exchange_yields h hencode hreply hc ?_)
  intro c' hopen hs
  have haccept := accept_yields (Reply.envelope word v) hopen
  rw [hs] at haccept
  cases hv : Reply.envelope word v with
  | error e =>
    rw [hv] at haccept
    exact yields_bind_error haccept
  | ok entries =>
    rw [hv] at haccept
    refine yields_bind_ok haccept ?_
    intro c'' hopen'' hs''
    exact yields_ok (run_record _ _ c'') hopen'' hs''

theorem watchList_yields (h : Ready c)
    (hframe : framed (.ok (simpleCommand ["watch-list"])) = .ok frame)
    (hreply : ReplyBytes b v) (hc : c.stream.incoming = b ++ R) :
    Yields watchList c ((Reply.watchedRoots v).mapError .reply) (exchanged c.stream frame R) := by
  obtain ⟨message, hrequest, hencode⟩ := framed_ok hframe
  cases hrequest
  refine exchange_yields h hencode hreply hc ?_
  intro c' hopen hs
  rw [← hs]
  exact accept_yields _ hopen

theorem queryRequest_path {path expression fields message : Value}
    (h : queryRequest path expression fields = .ok message) : ∃ p, path.display = .ok p := by
  cases hpath : path.display with
  | ok p => exact ⟨p, rfl⟩
  | error e =>
    unfold queryRequest at h
    rw [hpath] at h
    cases hexpression : Expression.wireOf expression with
    | error e => rw [hexpression] at h; cases h
    | ok wire =>
      cases hfields : Field.namesOf fields with
      | error e => rw [hexpression, hfields] at h; cases h
      | ok names => rw [hexpression, hfields] at h; cases h

theorem query_yields {path expression fields : Value} (h : Ready c)
    (hframe : framed (queryRequest path expression fields) = .ok frame)
    (hreply : ReplyBytes b v) (hc : c.stream.incoming = b ++ R) :
    Yields (query path expression fields) c ((Reply.queryAnswer v).mapError .reply)
      (exchanged c.stream frame R) := by
  obtain ⟨message, hrequest, hencode⟩ := framed_ok hframe
  have hlift : (lift id (queryRequest path expression fields)).run c = .ok message c := by
    rw [hrequest, run_lift_ok]
  refine yields_step hlift (exchange_yields h hencode hreply hc ?_)
  intro c' hopen hs
  obtain ⟨p, hpath⟩ := queryRequest_path hrequest
  have haccept := accept_yields (Reply.queryAnswer v) hopen
  rw [hs] at haccept
  cases hv : Reply.queryAnswer v with
  | error e =>
    rw [hv] at haccept
    exact yields_bind_error haccept
  | ok answer =>
    rw [hv] at haccept
    refine yields_bind_ok haccept ?_
    intro c'' hopen'' hs''
    have hdisplay : (display path).run c'' = .ok p c'' := by rw [display, hpath, run_lift_ok]
    refine yields_step hdisplay ?_
    exact yields_step (run_record _ _ c'') (yields_ok rfl hopen'' hs'')

/-- A call with a frame sends that, takes the next reply and ends as it makes of the reply. -/
theorem perform_yields (call : Call) (h : Ready c) (hframe : call.frame = .ok frame)
    (hreply : ReplyBytes b v) (hc : c.stream.incoming = b ++ R) :
    Yields call.perform c ((call.decode v).mapError .reply) (exchanged c.stream frame R) := by
  cases call with
  | watch path =>
    have hrun := pathCommand_yields "watch" "Watching " h hframe hreply hc
    have hdone := yields_map (fun _ => Answer.done) hrun
    rw [← mapError_map, bind_assoc] at hdone
    rw [Call.perform, watch_eq]
    exact hdone
  | watchDel path =>
    have hrun := pathCommand_yields "watch-del" "Stopped watching " h hframe hreply hc
    have hdone := yields_map (fun _ => Answer.done) hrun
    rw [← mapError_map, bind_assoc] at hdone
    rw [Call.perform, watchDel_eq]
    exact hdone
  | watchList =>
    rw [Call.decode, mapError_map]
    exact yields_map Answer.roots (watchList_yields h hframe hreply hc)
  | query path expression fields =>
    rw [Call.decode, mapError_map]
    exact yields_map Answer.files (query_yields h hframe hreply hc)

/-- A message without a frame is not sent. -/
theorem send_unsent {message : Value} {e : Failure} (h : Ready c)
    (hframe : framed (.ok message) = .error e) : (send message).run c = .error e c := by
  change (Frame.encode message).mapError encodeFailure = .error e at hframe
  rw [send_run h]
  cases hencode : Frame.encode message with
  | error e' => rw [hencode] at hframe; cases hframe; rfl
  | ok bytes => rw [hencode] at hframe; cases hframe

end

end FileWatch.Client
