import FileWatch.Client
import FileWatch.Config.Assignments
import FileWatch.Config.Interpolation
/-!
The settings of a client: where the daemon's socket is, which command finds it, and how long to
wait. Each is looked for in the environment first, then in the options that were loaded under its
long name, then under its short name.
-/

namespace FileWatch.Config

abbrev Environment := List (Text × Text)

structure Settings where
  sockname : Option Text := none
  binary : Text := "watchman"
  timeout : Option Binary64 := none
  deriving DecidableEq, Repr

def Settings.target (s : Settings) : Target where
  sockname := (s.sockname.map Value.text).getD .null
  timeout := (s.timeout.map Value.float).getD .null
  binary := .text s.binary

inductive SettingsError where
  | malformedTimeout (literal : Text)
  | notANumber (kind : String)
  | tooLarge
  | misuse (e : Misuse)
  deriving DecidableEq, Repr

def SettingsError.message : SettingsError → Text
  | .malformedTimeout literal =>
    ("Invalid timeout " : Text) ++ literal ++ ": expected a number of seconds"
  | .notANumber kind =>
    ("float() argument must be a string or a real number, not '" : Text) ++ kind ++ "'"
  | .tooLarge => "int too large to convert to float"
  | .misuse e => e.message

abbrev RawOptions := List (Value × Value)

def readSeconds : Value → Except SettingsError (Option Binary64)
  | .float x => .ok (some x)
  | .bool b => .ok (some (Binary64.ofInt (if b then 1 else 0)))
  | .int n =>
    match Binary64.ofInt n with
    | .infinite _ => .error .tooLarge
    | x => .ok (some x)
  | .text t => .ok (Binary64.read t)
  | .bytes b => .ok (Binary64.readPlain (Numeral.plainBytes b))
  | v => .error (.notANumber v.fullKindName)

/-- A time limit in seconds: a number that is zero or less means that there is none. -/
def limit? (x : Binary64) : Option Binary64 := if x.isAtMostZero then none else some x

/-- The time limit that a value gives. A blank value gives none. -/
def timeoutOf (v : Value) : Except SettingsError (Option Binary64) :=
  match v with
  | .null => .ok none
  | v => do
    let shown ← v.display.mapError fun e => .misuse (.tooLong e)
    if Text.isBlank shown then pure none
    else
      match ← readSeconds v with
      | some x => pure (limit? x)
      | none =>
        let literal ← v.literal.mapError fun e => .misuse (.tooLong e)
        throw (.malformedTimeout literal)

def firstGiven (values : List Value) : Option Value := values.find? Value.isTruthy

def stripped : Value → Except SettingsError Text
  | .text t => .ok (Text.strip t)
  | v => .error (.misuse (.noProperty v.fullKindName "strip"))

def fromEnvironment (environment : Environment) (name : Text) : Value :=
  ((environment.lookup name).map Value.text).getD .null

def option (raw : RawOptions) (name : Text) : Value := (Value.lookup? name raw).getD .null

def settings (environment : Environment) (raw : RawOptions) : Except SettingsError Settings := do
  let sockname := firstGiven [fromEnvironment environment "WATCHMAN_SOCK",
    option raw "watchman_sock", option raw "sockname"]
  let binary := (firstGiven [fromEnvironment environment "WATCHMAN_BINARY",
    option raw "watchman_binary", option raw "binary"]).getD (.text "watchman")
  let fromVariable := fromEnvironment environment "WATCHMANLITE_TIMEOUT_S"
  let fromOption := (Value.lookup? "watchmanlite_timeout_s" raw).getD (option raw "timeout")
  let timeout ← match fromVariable with
    | .text t => timeoutOf (if Text.isBlank t then fromOption else fromVariable)
    | _ => timeoutOf fromOption
  let sockname ← match sockname with
    | some v => some <$> stripped v
    | none => pure none
  pure { sockname, binary := ← stripped binary, timeout }

inductive LoadError where
  | sections (path : Text) (e : SectionsError)
  | interpolation (e : InterpolationError)
  deriving DecidableEq, Repr

def LoadError.message : LoadError → Text
  | .sections path e => e.message path
  | .interpolation e => e.message

/-- The files that a client's options come from, where they exist, and the path of the first. -/
structure Files where
  path : Text
  configuration : Option Text := none
  assignments : Option Text := none
  deriving DecidableEq, Repr

/-- The options in the files. The file of assignments counts only when there is no configuration
file. -/
def load (environment : Environment) (files : Files) : Except LoadError Options :=
  match files.configuration, files.assignments with
  | some file, _ => do
    let sections ← (readSections file).mapError (.sections files.path)
    sections.client.mapError .interpolation
  | none, some file => .ok (readAssignments environment file)
  | none, none => .ok []

def Options.toRaw (options : Options) : RawOptions :=
  options.map fun (name, value) => (.text name, .text value)

end FileWatch.Config
