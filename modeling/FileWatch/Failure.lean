import FileWatch.Query.Field
import FileWatch.Query.Wire
import FileWatch.Reply
import FileWatch.Stream
/-!
What can go wrong between a caller and the daemon. Most failures belong to one of the client's
categories, which form a tree; the rest are faults of the arguments or of the data itself.
-/

namespace FileWatch

inductive Category where
  | watchman
  | transport
  | socket
  | connect
  | stream
  | discovery
  | send
  | serialize
  | frame
  | parse
  | framing
  | command
  | responseShape
  deriving DecidableEq, Repr

namespace Category

def name : Category → String
  | watchman => "WatchmanError"
  | transport => "TransportError"
  | socket => "SocketError"
  | connect => "ConnectError"
  | stream => "StreamError"
  | discovery => "DiscoveryError"
  | send => "SendError"
  | serialize => "SerializeError"
  | frame => "FrameError"
  | parse => "ParseError"
  | framing => "FramingError"
  | command => "CommandError"
  | responseShape => "ResponseShapeError"

def parent? : Category → Option Category
  | watchman => none
  | transport | discovery | send | frame | command | responseShape => some watchman
  | socket | connect | stream => some transport
  | serialize => some send
  | parse | framing => some frame

def all : List Category :=
  [watchman, transport, socket, connect, stream, discovery, send, serialize, frame, parse, framing,
    command, responseShape]

def ofName? (n : String) : Option Category := all.find? fun c => c.name = n

/-- The categories that contain one, from itself to the root. The tree is three levels deep. -/
def lineage (c : Category) : List Category :=
  match c.parent? with
  | none => [c]
  | some p =>
    match p.parent? with
    | none => [c, p]
    | some q => [c, p, q]

end Category

inductive DiscoveryFault where
  | notRun (e : OsError)
  | expired (command limit : Text)
  | failed (detail : Text)
  | malformed (fault : Json.Fault) (whole rest : Text)
  | notObject
  | noSockname
  | socknameNotText
  deriving DecidableEq, Repr

def DiscoveryFault.message : DiscoveryFault → Text
  | .notRun e => ("Could not watchman get-sockname: " : Text) ++ e.message
  | .expired command limit =>
    ("Could not watchman get-sockname: Command '" : Text) ++ command ++ "' timed out after " ++
      limit ++ " seconds"
  | .failed detail => ("Could not watchman get-sockname: " : Text) ++ detail
  | .malformed fault whole rest => bad (Json.locate fault whole rest)
  | .notObject => bad "object expected"
  | .noSockname => bad "socket expected"
  | .socknameNotText => bad "socket is not string"
where
  bad (detail : Text) : Text := ("Got bad JSON from watchman get-sockname: " : Text) ++ detail

inductive Failure where
  | socket (e : OsError)
  | connect (e : OsError) (path : Text)
  | wrap (path : Text)
  | closed
  | read (e : OsError)
  | send (e : OsError)
  | discovery (e : DiscoveryFault)
  | serialize (e : Json.EncodeError)
  | encoding (e : Utf8.EncodeError)
  | frame (e : Frame.DecodeError)
  | reply (e : Reply.Error)
  | argument (e : ArgumentError)
  | fields (e : FieldError)
  | longInteger (digits : Nat)
  | tooLong (e : Numeral.TooLong)
  | misuse (e : Misuse)
  | call (e : CallFault)
  deriving DecidableEq, Repr

def Frame.DecodeError.message : Frame.DecodeError → Text
  | .utf8 e => unparseable e.message
  | .blank => unparseable "empty reply"
  | .malformed fault whole rest => unparseable (Json.locate fault whole rest)
  | .noNewline => "No newline at end of reply"
  | .trailingData => "Trailing data after reply"
  | .longInteger digits => Numeral.tooManyDigits digits
where
  unparseable (detail : Text) : Text :=
    ("Got unparseable or empty result from watchman: " : Text) ++ detail

namespace Failure

def message : Failure → Text
  | socket e => ("socket error " : Text) ++ code e
  | connect e path => ("connect error " : Text) ++ code e ++ ": " ++ path
  | wrap path => ("Failed to connect to watchman socket " : Text) ++ path ++ "."
  | closed => "Connection to watchman is closed"
  | read e => ("Failed to read from watchman: " : Text) ++ e.message
  | send e => ("Failed to send watchman command: " : Text) ++ e.message
  | discovery e => e.message
  | serialize e => ("Failed to serialize watchman message: " : Text) ++ e.message
  | encoding e => e.message
  | frame e => e.message
  | reply e => e.message
  | argument e => e.message
  | fields e => e.message
  | longInteger digits => Numeral.tooManyDigits digits
  | tooLong e => e.message
  | misuse e => e.message
  | call e => e.message
where
  code (e : OsError) : Text :=
    match e.code with
    | some n => Text.ofInt n
    | none => "None"

/-- The client's category of a failure. Text with surrogates, integers with too many digits, unfit
arguments and calls that break off belong to none. -/
def category? : Failure → Option Category
  | socket _ => some .socket
  | connect .. => some .connect
  | wrap _ | closed | read _ => some .stream
  | send _ => some .send
  | discovery _ => some .discovery
  | serialize _ => some .serialize
  | frame e =>
    match e with
    | .utf8 _ | .blank | .malformed .. => some .parse
    | .noNewline | .trailingData => some .framing
    | .longInteger _ => none
  | reply e =>
    match e with
    | .shape .. => some .responseShape
    | .refused .. => some .command
    | .tooLong _ | .template _ => none
  | encoding _ | argument _ | fields _ | longInteger _ | tooLong _ | misuse _ | call _ => none

/-- The reply's field at fault, where its shape is wrong. -/
def field? : Failure → Option String
  | reply (.shape expected _) => expected.field?
  | _ => none

def reason? : Failure → Option Text
  | reply (.refused _ reason) => some reason
  | _ => none

end Failure

end FileWatch
