import FileWatch.Client
/-!
The client's actions step by step: what each of the steps that actions are put together from does
to the client, and from that what sending and reading one message do.
-/

namespace FileWatch.Client

variable {α β ε : Type}

theorem run_bind_ok {x : Action α} {f : α → Action β} {a : α} {c c' : Client}
    (h : x.run c = .ok a c') : (x >>= f).run c = (f a).run c' := by
  rw [EStateM.run_bind, h]

theorem run_bind_error {x : Action α} {f : α → Action β} {e : Failure} {c c' : Client}
    (h : x.run c = .error e c') : (x >>= f).run c = .error e c' := by
  rw [EStateM.run_bind, h]

@[simp]
theorem run_lift_ok (failure : ε → Failure) (a : α) (c : Client) :
    (lift failure (.ok a)).run c = .ok a c := rfl

@[simp]
theorem run_lift_error (failure : ε → Failure) (e : ε) (c : Client) :
    (lift failure (.error e : Except ε α)).run c = .error (failure e) c := rfl

@[simp]
theorem run_onStream (f : Stream → Except ε α × Stream) (c : Client) :
    (onStream f).run c = .ok (f c.stream).1 { c with stream := (f c.stream).2 } := rfl

def logged (level : Level) (message : Text) (c : Client) : Client :=
  { c with log := c.log ++ [⟨level, message⟩] }

@[simp]
theorem run_record (level : Level) (message : Text) (c : Client) :
    (record level message).run c = .ok () (logged level message c) := rfl

theorem run_requireOpen {c : Client} (h : c.isOpen = true) : requireOpen.run c = .ok () c := by
  simp [requireOpen, h]

def readFailure : Stream.ReadError → Failure
  | .os e => .read e
  | .longInteger digits => .longInteger digits

def noted (frame : Bytes) (c : Client) : Client :=
  logged .debug (("received " : Text) ++ quotedBytes frame) c

/-- A read takes a frame from the stream, and fails with the frame's fault if that holds no
message. -/
theorem read_run {c : Client} (h : c.isOpen = true) :
    read.run c = match Stream.readFrame c.stream with
      | (.error e, s) => .error (readFailure e) { c with stream := s }
      | (.ok frame, s) =>
        match Frame.decode frame with
        | .ok v => .ok v (noted frame { c with stream := s })
        | .error e => .error (.frame e) (noted frame { c with stream := s }) := by
  unfold read
  rw [run_bind_ok (run_requireOpen h), run_bind_ok (run_onStream _ c)]
  rcases Stream.readFrame c.stream with ⟨e | frame, s⟩
  · cases e <;> rfl
  · rw [run_bind_ok (run_lift_ok _ frame _), run_bind_ok (run_record _ _ _)]
    dsimp only
    cases Frame.decode frame <;> rfl

/-- An open client whose stream holds nothing back and has no error armed for what is sent. -/
structure Ready (c : Client) : Prop where
  isOpen : c.isOpen = true
  pending : c.stream.pending = []
  writeError : c.stream.writeError = none
  flushError : c.stream.flushError = none

def encodeFailure : Frame.EncodeError → Failure
  | .json e => .serialize e
  | .utf8 e => .encoding e

def announced (frame : Bytes) (c : Client) : Client :=
  logged .debug (("sent " : Text) ++ quotedBytes frame.dropLast) c

theorem write_flush {s : Stream} (frame : Bytes) (hpending : s.pending = [])
    (hwrite : s.writeError = none) (hflush : s.flushError = none) :
    (s.write frame).1 = .ok () ∧ ((s.write frame).2.flush).1 = .ok () ∧
      ((s.write frame).2.flush).2 = { s with sent := s.sent ++ frame } := by
  simp [Stream.write, Stream.flush, hwrite, hflush, hpending]

/-- A ready client sends a message's frame whole, or nothing if the message has none. -/
theorem send_run {c : Client} (h : Ready c) (message : Value) :
    (send message).run c = match Frame.encode message with
      | .error e => .error (encodeFailure e) c
      | .ok frame => .ok () (announced frame
          { c with stream := { c.stream with sent := c.stream.sent ++ frame } }) := by
  unfold send
  rw [run_bind_ok (run_requireOpen h.isOpen)]
  cases Frame.encode message with
  | error e =>
    rw [run_bind_error (run_lift_error _ e c)]
    cases e <;> rfl
  | ok frame =>
    obtain ⟨hwrite, hflush, hsent⟩ := write_flush frame h.pending h.writeError h.flushError
    rw [run_bind_ok (run_lift_ok _ frame c), run_bind_ok (run_onStream _ c), hwrite,
      run_bind_ok (run_lift_ok _ () _), run_bind_ok (run_onStream _ _), hflush,
      run_bind_ok (run_lift_ok _ () _), run_record]
    dsimp only
    rw [hsent]
    rfl

end FileWatch.Client
