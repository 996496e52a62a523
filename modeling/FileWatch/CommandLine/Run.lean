import FileWatch.CommandLine.Command
import FileWatch.Config.Settings
import FileWatch.Report
/-!
Running a command line. A run ends with an exit status, or with an error that it does not handle.
Of the client's failures it handles those that have a category: they are printed and end the run
with status 1. A connection that was opened is closed however the run goes on.
-/

namespace FileWatch

inductive Ending where
  | exited (status : Nat)
  | usage (e : UsageError)
  | load (e : Config.LoadError)
  | report (e : Report.Error)
  | failure (e : Failure)
  deriving DecidableEq, Repr

/-- The client that a run uses, and what it has printed on which consoles. -/
structure Run where
  client : Client
  screen : Console := {}
  errorScreen : Console := {}
  verbose : Bool := false
  stdout : Text := []
  stderr : Text := []

namespace Run

/-- The log records that are shown: only warnings, unless the run is verbose. -/
def shownLog (r : Run) : List LogRecord :=
  if r.verbose then r.client.log else r.client.log.filter fun l => l.level = .warning

abbrev Step := EStateM Ending Run

def tell (p : Report.Printer Unit) : Step Unit := fun r =>
  match (p.run r.screen).run [] with
  | .ok _ t => .ok () { r with stdout := r.stdout ++ t }
  | .error e t => .error (.report e) { r with stdout := r.stdout ++ t }

def echo (t : Text) : Step Unit := tell (Report.emit (t ++ ("\n" : Text)))

def fail {α : Type} (status : Nat) (message : Text) : Step α := fun r =>
  match ((Report.failure message).run r.errorScreen).run [] with
  | .ok _ t => .error (.exited status) { r with stderr := r.stderr ++ t }
  | .error e t => .error (.report e) { r with stderr := r.stderr ++ t }

def lift {ε α : Type} (ending : ε → Ending) : Except ε α → Step α
  | .ok a => pure a
  | .error e => throw (ending e)

def require {ε α : Type} (status : Nat) (message : ε → Text) : Except ε α → Step α
  | .ok a => pure a
  | .error e => fail status (message e)

def perform {α : Type} (action : Action α) : Step α := fun r =>
  match action.run r.client with
  | .ok a client => .ok a { r with client }
  | .error e client =>
    let r := { r with client }
    if e.category?.isSome then fail 1 e.message r else .error (.failure e) r

def connected {α : Type} (s : Config.Settings) (action : Action α) : Step α := do
  perform (Client.connect s.target)
  try perform action finally perform Client.close

def configure (environment : Config.Environment) (files : Config.Files) (o : SharedOptions) :
    Step Config.Settings := do
  let options ← lift .load (Config.load environment files)
  let complaint (e : Config.SettingsError) : Text :=
    ("Error loading configuration: " : Text) ++ e.message
  let s ← require 1 complaint (Config.settings environment options.toRaw)
  let timeout :=
    match o.timeout with
    | some x => if x.isPositive then some x else none
    | none => s.timeout
  pure { s with sockname := o.sockname <|> s.sockname, timeout }

/-- Prints the socket's path. An empty one in the settings counts for nothing. -/
def sockname (s : Config.Settings) : Step Unit := do
  let configured := s.sockname.getD []
  if configured.isEmpty then
    echo (← perform (Client.discover s.target.binary s.target.timeout))
  else echo configured

def expressionRecord (e : Expression) : Except Numeral.TooLong Text := do
  let terms := e.terms.map fun t => Text.ofString t.word
  pure (("query expression (" : Text) ++ Text.ofNat terms.length ++ " terms: " ++
    Text.join ", " terms ++ "): " ++ (← e.wire.literal))

def query (s : Config.Settings) (q : QueryCommand) : Step Unit := do
  let e ← require 2 ArgumentError.message q.filters.expression
  let fields ←
    if q.fields.isEmpty then pure Client.defaultFields
    else do
      let mask ← require 2 FieldError.message (Field.parse (.list (q.fields.map .text)))
      pure (Value.int mask)
  perform (do Client.record .debug (← Client.lift .tooLong (expressionRecord e)))
  let result ← connected s (Client.query (.text q.path) (.expression e) fields)
  tell (if q.asJson then Report.answerJson result else Report.answer result fields)

/-- Runs a command. A request for help is met with a text that is not part of the reports. -/
def command (s : Config.Settings) : Command → Step Unit
  | .help => pure ()
  | .sockname => sockname s
  | .watch path => do
    connected s (Client.watch (.text path))
    tell (Report.success (("Watching " : Text) ++ path))
  | .watchDel path => do
    connected s (Client.watchDel (.text path))
    tell (Report.success (("Stopped watching " : Text) ++ path))
  | .watchList => do tell (Report.roots (← connected s Client.watchList))
  | .query q => query s q

/-- Runs the words of a command line. The settings are made before the words after the command's
name are read. -/
def commandLine (environment : Config.Environment) (files : Config.Files) (words : List Text) :
    Step Unit := do
  match ← lift .usage (CommandLine.read words) with
  | .help => pure ()
  | .command options name rest =>
    modify fun r => { r with verbose := options.verbose }
    let s ← configure environment files options
    command s (← lift .usage (Command.read name rest))

end Run

end FileWatch
