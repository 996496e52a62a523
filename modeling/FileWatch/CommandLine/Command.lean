import FileWatch.CommandLine.Grammar
import FileWatch.Number.Binary64
import FileWatch.Query.Filter
/-!
The commands of the program. Options that hold for every command stand in front of the command's
name; what follows the name is read only when the command's turn comes.
-/

namespace FileWatch

inductive CommandName where
  | sockname
  | watch
  | watchDel
  | watchList
  | query
  deriving DecidableEq, Repr

namespace CommandName

def word : CommandName → String
  | sockname => "sockname"
  | watch => "watch"
  | watchDel => "watch-del"
  | watchList => "watch-list"
  | query => "query"

def all : List CommandName := [sockname, watch, watchDel, watchList, query]

def ofWord? (w : Text) : Option CommandName := all.find? fun c => w = Text.ofString c.word

end CommandName

inductive SharedOption where
  | sockname
  | timeout
  | verbose
  | help
  deriving DecidableEq, Repr

inductive QueryOption where
  | suffix
  | name
  | since
  | fileType
  | field
  | json
  | help
  deriving DecidableEq, Repr

inductive HelpOption where
  | help
  deriving DecidableEq, Repr

def sharedGrammar : Grammar SharedOption where
  interspersed := false
  forms := [⟨.sockname, "--sockname", none, true⟩, ⟨.timeout, "--timeout", none, true⟩,
    ⟨.verbose, "--verbose", some 'v', false⟩, ⟨.help, "--help", none, false⟩]

def queryGrammar : Grammar QueryOption where
  forms := [⟨.suffix, "--suffix", some 's', true⟩, ⟨.name, "--name", some 'n', true⟩,
    ⟨.since, "--since", none, true⟩, ⟨.fileType, "--type", some 't', true⟩,
    ⟨.field, "--field", some 'f', true⟩, ⟨.json, "--json", none, false⟩,
    ⟨.help, "--help", none, false⟩]

def helpGrammar : Grammar HelpOption where
  forms := [⟨.help, "--help", none, false⟩]

structure SharedOptions where
  sockname : Option Text := none
  timeout : Option Binary64 := none
  verbose : Bool := false
  deriving DecidableEq, Repr

/-- A command line up to the command's name, and the words after it; or a request for help. -/
inductive CommandLine where
  | help
  | command (options : SharedOptions) (name : CommandName) (rest : List Text)
  deriving DecidableEq, Repr

structure QueryCommand where
  path : Text
  filters : Filters
  fields : List Text
  asJson : Bool
  deriving Repr

inductive Command where
  | help
  | sockname
  | watch (path : Text)
  | watchDel (path : Text)
  | watchList
  | query (q : QueryCommand)
  deriving Repr

/-- Reads a command line. A request for help goes before what is wrong with values and names. -/
def CommandLine.read (words : List Text) : Except UsageError CommandLine := do
  let a ← sharedGrammar.read words
  if a.isGiven .help then return .help
  let timeout ← match a.last? .timeout with
    | none => pure none
    | some t =>
      match Binary64.read t with
      | some x => pure (some x)
      | none => throw (.badNumber t)
  match a.positional with
  | [] => throw .missingCommand
  | name :: rest =>
    match CommandName.ofWord? name with
    | none => throw (.unknownCommand name)
    | some c => pure (.command ⟨a.last? .sockname, timeout, a.isGiven .verbose⟩ c rest)

def onePath : List Text → Except UsageError Text
  | [] => .error .missingArgument
  | [path] => .ok path
  | _ :: word :: _ => .error (.surplusArgument word)

def noArguments : List Text → Except UsageError Unit
  | [] => .ok ()
  | word :: _ => .error (.surplusArgument word)

namespace Command

def readPlain (words : List Text) (command : List Text → Except UsageError Command) :
    Except UsageError Command := do
  let a ← helpGrammar.read words
  if a.isGiven .help then pure .help else command a.positional

def readQuery (words : List Text) : Except UsageError Command := do
  let a ← queryGrammar.read words
  if a.isGiven .help then return .help
  let texts (k : QueryOption) : Value := .list ((a.values k).map .text)
  let text (k : QueryOption) : Value := ((a.last? k).map Value.text).getD .null
  let filters : Filters := ⟨texts .suffix, texts .name, text .since, text .fileType⟩
  pure (.query ⟨← onePath a.positional, filters, a.values .field, a.isGiven .json⟩)

def read (name : CommandName) (words : List Text) : Except UsageError Command :=
  match name with
  | .sockname => readPlain words fun a => do noArguments a; pure .sockname
  | .watch => readPlain words fun a => do pure (.watch (← onePath a))
  | .watchDel => readPlain words fun a => do pure (.watchDel (← onePath a))
  | .watchList => readPlain words fun a => do noArguments a; pure .watchList
  | .query => readQuery words

end Command

end FileWatch
