import FileWatch.Text.Utf8
import FileWatch.Value.Literal
/-!
What the client asks of the operating system, and what the system answers. Nothing here is
performed: a host is a record of the answers to the calls that a client makes.
-/

namespace FileWatch

structure OsError where
  code : Option Int
  text : Text
  filename : Option Text
  deriving DecidableEq, Repr

def OsError.message (e : OsError) : Text :=
  match e.code with
  | none => e.text
  | some code =>
    let place : Text :=
      match e.filename with
      | some name => (": " : Text) ++ name.quoted
      | none => []
    ("[Errno " : Text) ++ Text.ofInt code ++ "] " ++ e.text ++ place

/-- Why a call breaks off without an answer of the system: something that it is given does not fit
the system's types, or what the system gives is no text. -/
inductive CallFault where
  | badValue (message : Text)
  | tooLarge (message : Text)
  | badKind (message : Text)
  | unencodable (e : Utf8.EncodeError)
  | undecodable (e : Utf8.DecodeError)
  deriving DecidableEq, Repr

def CallFault.message : CallFault → Text
  | .badValue message | .tooLarge message | .badKind message => message
  | .unencodable e => e.message
  | .undecodable e => e.message

/-- How a command that was run came out. What it prints is decoded in the call: output or errors
that are no UTF-8 break it off, and so does a limit that is no time to wait for. -/
inductive ProcessOutcome where
  | finished (status : Int) (output : Text) (errors : Option Text)
  | failed (e : OsError)
  | expired (limit : Value)
  | broken (e : CallFault)
  deriving Repr

/-- The answers of a host: to running the discovery command, and to creating a socket, limiting it
in time, connecting and wrapping it. A call without an error or fault succeeds. -/
structure Host where
  discovery : ProcessOutcome := .finished 0 [] (some [])
  socketError : Option OsError := none
  limitFault : Option CallFault := none
  pathFault : Option CallFault := none
  connectError : Option OsError := none
  wrapError : Option OsError := none
  deriving Repr

inductive SystemCall where
  | run (command : List Value) (timeout : Value)
  | createSocket
  | setTimeout (timeout : Value)
  | connect (path : Text)
  | wrapSocket
  | closeSocket
  deriving Repr

inductive Level where
  | debug
  | info
  | warning
  deriving DecidableEq, Repr

def Level.name : Level → String
  | .debug => "DEBUG"
  | .info => "INFO"
  | .warning => "WARNING"

structure LogRecord where
  level : Level
  message : Text
  deriving DecidableEq, Repr

end FileWatch
