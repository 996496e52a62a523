import FileWatch.Text
/-!
The words of a command line. A long option is a word of its own, and its value is the next word or
follows an equal sign. Letters after one hyphen are short options; the first that takes a value
takes the rest of the word, or the next word when nothing is left. Two hyphens alone end the
options.
-/

namespace FileWatch

inductive UsageError where
  | unknownOption (word : Text)
  | missingValue
  | needlessValue (option : Text)
  | missingCommand
  | unknownCommand (word : Text)
  | missingArgument
  | surplusArgument (word : Text)
  | badNumber (word : Text)
  deriving DecidableEq, Repr

def UsageError.message : UsageError → Text
  | .unknownOption word => ("No such option: " : Text) ++ word
  | .missingValue => "Option requires an argument."
  | .needlessValue option => ("Option '" : Text) ++ option ++ "' does not take a value."
  | .missingCommand => "Missing command."
  | .unknownCommand word => ("No such command '" : Text) ++ word ++ "'."
  | .missingArgument => "Missing argument 'PATH'."
  | .surplusArgument word => ("Got unexpected extra argument (" : Text) ++ word ++ ")"
  | .badNumber word => ("'" : Text) ++ word ++ "' is not a valid float."

structure OptionForm (κ : Type) where
  option : κ
  long : String
  short : Option Char := none
  takesValue : Bool := true

/-- The options of a command. They may stand among the arguments if these are `interspersed`, and
else only in front of them. -/
structure Grammar (κ : Type) where
  forms : List (OptionForm κ)
  interspersed : Bool := true

/-- Options with their values, in order, and the other words. A flag has an empty value. -/
structure Arguments (κ : Type) where
  given : List (κ × Text)
  positional : List Text

namespace Arguments

variable {κ : Type} [DecidableEq κ]

def isGiven (a : Arguments κ) (k : κ) : Bool := a.given.any fun (given, _) => given = k

def last? (a : Arguments κ) (k : κ) : Option Text := a.given.reverse.lookup k

def values (a : Arguments κ) (k : κ) : List Text :=
  a.given.filterMap fun (given, value) => if given = k then some value else none

end Arguments

namespace Grammar

variable {κ : Type}

def long? (g : Grammar κ) (word : Text) : Option (OptionForm κ) :=
  g.forms.find? fun f => word = Text.ofString f.long

def short? (g : Grammar κ) (letter : CodePoint) : Option (OptionForm κ) :=
  g.forms.find? fun f => f.short.map CodePoint.ofChar = some letter

/-- What one word says: the options that it gives, and one that still awaits its value. -/
structure Reading (κ : Type) where
  given : List (κ × Text)
  awaiting : Option κ

def readLetters (g : Grammar κ) : Text → Except UsageError (Reading κ)
  | [] => .ok ⟨[], none⟩
  | letter :: rest =>
    match g.short? letter with
    | none => .error (.unknownOption ['-', letter])
    | some f =>
      if f.takesValue then
        .ok (if rest.isEmpty then ⟨[], some f.option⟩ else ⟨[(f.option, rest)], none⟩)
      else do
        let r ← readLetters g rest
        pure { r with given := (f.option, []) :: r.given }

def readOption (g : Grammar κ) (word : Text) : Except UsageError (Reading κ) :=
  let name := word.takeWhile fun c : CodePoint => c != '='
  let value? : Option Text :=
    if name.length < word.length then some (word.drop (name.length + 1)) else none
  let hyphens : Text := "--"
  match g.long? name with
  | some f =>
    match f.takesValue, value? with
    | true, some value => .ok ⟨[(f.option, value)], none⟩
    | true, none => .ok ⟨[], some f.option⟩
    | false, some _ => .error (.needlessValue name)
    | false, none => .ok ⟨[(f.option, [])], none⟩
  | none =>
    if hyphens.isPrefixOf word then .error (.unknownOption name) else g.readLetters (word.drop 1)

def readFrom (g : Grammar κ) : (awaiting : Option κ) → List Text → Except UsageError (Arguments κ)
  | some _, [] => .error .missingValue
  | some k, value :: rest => do
    let a ← readFrom g none rest
    pure { a with given := (k, value) :: a.given }
  | none, [] => .ok ⟨[], []⟩
  | none, word :: rest =>
    let hyphens : Text := "--"
    if word = hyphens then .ok ⟨[], rest⟩
    else if word.head? = some '-' && 1 < word.length then do
      let r ← g.readOption word
      let a ← readFrom g r.awaiting rest
      pure { a with given := r.given ++ a.given }
    else if g.interspersed then do
      let a ← readFrom g none rest
      pure { a with positional := word :: a.positional }
    else .ok ⟨[], word :: rest⟩

def read (g : Grammar κ) (words : List Text) : Except UsageError (Arguments κ) :=
  g.readFrom none words

end Grammar

end FileWatch
