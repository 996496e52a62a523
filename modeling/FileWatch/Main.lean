import FileWatch.CommandLine.Run
/-!
The program. It takes its words, its environment and its files from the system, and prints what
the run has printed. It neither runs commands nor opens sockets: to the client, the system answers
these calls with the error that there is no such function. So it prints the configured socket,
checks configurations and reports misuse, and a command for the daemon ends with status 1.
-/

namespace FileWatch

def absentHost : Host :=
  let absent : OsError := ⟨some 38, "Function not implemented", none⟩
  { discovery := .failed absent, socketError := some absent }

/-- A text for the terminal. A lone surrogate, which has no encoding, becomes a question mark. -/
def printable (t : Text) : String :=
  String.ofList (t.map fun c => c.toChar?.getD '?')

def decoded? (bytes : ByteArray) : Option Text := (Utf8.decode bytes.toList).toOption

def assignment? (t : Text) : Option (Text × Text) :=
  let name := t.takeWhile fun c : CodePoint => c != '='
  if name.length < t.length then some (name, t.drop (name.length + 1)) else none

def readEnvironment : IO Config.Environment := do
  try
    let all := (decoded? (← IO.FS.readBinFile "/proc/self/environ")).getD []
    pure ((all.split (· = 0)).filterMap assignment?)
  catch _ =>
    let names := ["HOME", "WATCHMAN_SOCK", "WATCHMAN_BINARY", "WATCHMANLITE_TIMEOUT_S"]
    let known ← names.mapM fun name => do
      pure ((← IO.getEnv name).map fun value => ((name : Text), (value : Text)))
    pure (known.filterMap id)

def readText? (path : String) : IO (Option Text) := do
  try pure (decoded? (← IO.FS.readBinFile path)) catch _ => pure none

def readFiles (environment : Config.Environment) : IO Config.Files := do
  let home := printable ((environment.lookup (Text.ofString "HOME")).getD ".")
  let path := home ++ "/.config/watchmanlite/config.cfg"
  pure ⟨path, ← readText? path, ← readText? ".env"⟩

/-- The console of this process: as wide as the environment says, and in UTF-8. -/
def systemConsole (environment : Config.Environment) : Console :=
  let columns := (environment.lookup (Text.ofString "COLUMNS")).getD []
  let isNumber := !columns.isEmpty && columns.all CodePoint.isAsciiDigit
  { width := if isNumber then Numeral.digitsValue columns else 80, surrogates := .refused }

/-- The status with which a run ends, and the message of an error that it has not handled. -/
def verdict : Ending → UInt32 × Text
  | .exited status => (UInt32.ofNat status, [])
  | .usage e => (2, e.message)
  | .load e => (1, e.message)
  | .report e => (1, e.message)
  | .failure e => (1, e.message)

def runOnSystem (words : List String) : IO UInt32 := do
  let environment ← readEnvironment
  let files ← readFiles environment
  let texts := words.map Text.ofString
  let screen := systemConsole environment
  let start : Run :=
    { client := { host := absentHost }, screen,
      errorScreen := { screen with surrogates := .escaped } }
  let (status, message, run) :=
    match (Run.commandLine environment files texts).run start with
    | .ok _ run => ((0 : UInt32), ([] : Text), run)
    | .error e run => ((verdict e).1, (verdict e).2, run)
  for record in run.shownLog do
    IO.eprintln ("[" ++ record.level.name ++ "] " ++ printable record.message)
  IO.print (printable run.stdout)
  IO.eprint (printable run.stderr)
  unless message.isEmpty do IO.eprintln (printable message)
  pure status

end FileWatch

def main (words : List String) : IO UInt32 := FileWatch.runOnSystem words
