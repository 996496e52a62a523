import FileWatch.Json.Encode
import FileWatch.Text.Template
import FileWatch.Value.Literal
import FileWatch.Value.Part
/-!
Replies of the daemon. A reply either decodes into a complete result or is an error: the daemon
refused the command, or the reply does not have the shape that the command calls for. An error of
shape shows the part of the reply that is at fault.
-/

namespace FileWatch

structure FileRecord where
  name : Text
  existing : Bool := false
  mode : Int := 0
  isNew : Bool := false
  size : Int := 0
  deriving DecidableEq, Repr

structure QueryAnswer where
  files : List FileRecord
  version : Text
  clock : Text
  isFreshInstance : Bool
  deriving DecidableEq, Repr

def QueryAnswer.names (r : QueryAnswer) : List Text := r.files.map FileRecord.name

structure WatchedRoots where
  roots : List Text
  deriving DecidableEq, Repr

namespace Reply

inductive Shape where
  | reply (command : Text)
  | files
  | file
  | fileName
  | fileMode
  | fileSize
  | version
  | clock
  | freshness
  | roots
  | root
  deriving DecidableEq, Repr

def Shape.template : Shape → Text
  | .reply command => ("Got non-object result from watchman " : Text) ++ command ++ ": %s"
  | .files => "Bad files %s"
  | .file => "must be object: %s"
  | .fileName => "name must be string: %s"
  | .fileMode => "mode must be integer: %s"
  | .fileSize => "size must be integer: %s"
  | .version => "Bad version %s"
  | .clock => "Bad clock %s"
  | .freshness => "Bad is_fresh_instance %s"
  | .roots => "Got bogus value from watch-list %s"
  | .root => "Got non-string root from watch-list %s"

def Shape.field? : Shape → Option String
  | .reply _ => none
  | .files | .file => some "files"
  | .fileName => some "name"
  | .fileMode => some "mode"
  | .fileSize => some "size"
  | .version => some "version"
  | .clock => some "clock"
  | .freshness => some "is_fresh_instance"
  | .roots | .root => some "roots"

/-- Why a reply is not accepted, or why that cannot be said: its part at fault has no literal, or
the command's name is not fit for a template. -/
inductive Error where
  | shape (expected : Shape) (message : Text)
  | refused (command reason : Text)
  | tooLong (e : Numeral.TooLong)
  | template (e : Template.Error)
  deriving DecidableEq, Repr

def Error.message : Error → Text
  | .shape _ message => message
  | .refused command reason =>
    ("Got error result from watchman " : Text) ++ command ++ ": " ++ reason
  | .tooLong e => e.message
  | .template e => e.message

/-- A value inside a message: its JSON text, or its literal when it has none. -/
def fragment (v : Value) : Except Numeral.TooLong Text :=
  match Json.encode .spaced v with
  | .ok t => .ok t
  | .error _ => v.literal

def misshapen (expected : Shape) (v : Value) : Error :=
  match fragment v with
  | .error e => .tooLong e
  | .ok t =>
    match Template.fill expected.template t with
    | .ok message => .shape expected message
    | .error e => .template e

def envelope (command : Text) : Value → Except Error (List (Value × Value))
  | .dict entries =>
    let entries := Value.ownEntries entries
    match Value.lookup? "error" entries with
    | none => .ok entries
    | some (.text reason) => .error (.refused command reason)
    | some v =>
      match fragment v with
      | .ok reason => .error (.refused command reason)
      | .error e => .error (.tooLong e)
  | v => .error (misshapen (.reply command) v)

def field (name : String) (entries : List (Value × Value)) : Value :=
  (Value.lookup? name entries).getD .null

/-- Whether a flag is set: it counts only when it is the truth value itself. -/
def flag (name : String) (entries : List (Value × Value)) : Bool :=
  match Value.lookup? name entries with
  | some (.bool b) => b
  | _ => false

def integer (name : String) (entries : List (Value × Value)) : Option Int :=
  match Value.lookup? name entries with
  | none => some 0
  | some (.int n) => some n
  | some _ => none

/-- One file of an answer; a text on its own is a file of which only the name is known. -/
def fileRecord : Value → Except Error FileRecord
  | .text name => .ok { name }
  | item@(.dict entries) =>
    match field "name" entries with
    | .text name =>
      match integer "mode" entries with
      | none => .error (misshapen .fileMode item)
      | some mode =>
        match integer "size" entries with
        | none => .error (misshapen .fileSize item)
        | some size =>
          .ok ⟨name, flag "exists" entries, mode, flag "new" entries, size⟩
    | _ => .error (misshapen .fileName item)
  | item => .error (misshapen .file item)

def queryAnswer (reply : Value) : Except Error QueryAnswer := do
  let entries ← envelope "query" reply
  let files ← match field "files" entries with
    | .list items => (Value.ownItems items).mapM fileRecord
    | v => throw (misshapen .files v)
  let version ← match field "version" entries with
    | .text t => pure t
    | v => throw (misshapen .version v)
  let clock ← match field "clock" entries with
    | .text t => pure t
    | v => throw (misshapen .clock v)
  let isFreshInstance ← match field "is_fresh_instance" entries with
    | .bool b => pure b
    | v => throw (misshapen .freshness v)
  pure { files, version, clock, isFreshInstance }

def watchedRoots (reply : Value) : Except Error WatchedRoots := do
  let entries ← envelope "watch-list" reply
  let roots ← match field "roots" entries with
    | .list items =>
      (Value.ownItems items).mapM fun item =>
        match item with
        | .text t => pure t
        | v => throw (misshapen .root v)
    | _ => throw (misshapen .roots reply)
  pure { roots }

end Reply

end FileWatch
