import FileWatch.Frame
import FileWatch.Host
/-!
The buffered stream of a connection. Bytes that were written wait until a flush that works; what
waits when the stream is closed goes out then, or is lost, as the stream has it. An armed error is
raised once, by the next call of its kind, and arming another takes its place.
-/

namespace FileWatch

inductive StreamCall where
  | read
  | write
  | flush
  | close
  deriving DecidableEq, Repr

/-- A stream; one that `drains` flushes what it holds when it is closed. -/
structure Stream where
  drains : Bool := false
  incoming : Bytes := []
  pending : Bytes := []
  sent : Bytes := []
  readError : Option OsError := none
  writeError : Option OsError := none
  flushError : Option OsError := none
  closeError : Option OsError := none
  deriving DecidableEq, Repr

namespace Stream

def feed (bytes : Bytes) (s : Stream) : Stream := { s with incoming := s.incoming ++ bytes }

def arm (call : StreamCall) (e : OsError) (s : Stream) : Stream :=
  match call with
  | .read => { s with readError := some e }
  | .write => { s with writeError := some e }
  | .flush => { s with flushError := some e }
  | .close => { s with closeError := some e }

def write (bytes : Bytes) (s : Stream) : Except OsError Unit × Stream :=
  match s.writeError with
  | some e => (.error e, { s with writeError := none })
  | none => (.ok (), { s with pending := s.pending ++ bytes })

def flush (s : Stream) : Except OsError Unit × Stream :=
  match s.flushError with
  | some e => (.error e, { s with flushError := none })
  | none => (.ok (), { s with sent := s.sent ++ s.pending, pending := [] })

def release (s : Stream) : Except OsError Unit × Stream :=
  match s.closeError with
  | some e => (.error e, { s with closeError := none })
  | none => (.ok (), s)

/-- Closes the stream. Where nothing waits there is nothing to flush, and so nothing that fails. -/
def close (s : Stream) : Except OsError Unit × Stream :=
  if s.drains && !s.pending.isEmpty then
    match s.flush with
    | (.error e, s) => (.error e, s)
    | (.ok (), s) => s.release
  else s.release

def lines : Bytes → List Bytes
  | [] => []
  | b :: rest =>
    if b = 0x0a then [b] :: lines rest
    else
      match lines rest with
      | [] => [[b]]
      | line :: others => (b :: line) :: others

/-- How the reading of a frame ends: with a frame, for want of lines, or at an integer with too
many digits. The lines that were not read are left. -/
inductive Gathering where
  | complete (frame : Bytes) (rest : List Bytes)
  | exhausted (frame : Bytes)
  | overlong (digits : Nat) (rest : List Bytes)
  deriving DecidableEq, Repr

/-- Adds lines to a frame until its document is complete. Blank lines in front of the document are
passed over. -/
def gather (frame : Bytes) : List Bytes → Gathering
  | [] => .exhausted frame
  | line :: rest =>
    if frame.isEmpty && line.all isBlankByte then gather frame rest
    else
      match Frame.needsMore (frame ++ line) with
      | .error digits => .overlong digits rest
      | .ok true => gather (frame ++ line) rest
      | .ok false => .complete (frame ++ line) rest

inductive ReadError where
  | os (e : OsError)
  | longInteger (digits : Nat)
  deriving DecidableEq, Repr

/-- Reads the lines of one frame. At the end of what has come in, an armed error is raised; without
one the stream has ended and the frame is what was read. -/
def readFrame (s : Stream) : Except ReadError Bytes × Stream :=
  match gather [] (lines s.incoming) with
  | .complete frame rest => (.ok frame, { s with incoming := rest.flatten })
  | .overlong digits rest => (.error (.longInteger digits), { s with incoming := rest.flatten })
  | .exhausted frame =>
    match s.readError with
    | some e => (.error (.os e), { s with incoming := [], readError := none })
    | none => (.ok frame, { s with incoming := [] })

end Stream

end FileWatch
