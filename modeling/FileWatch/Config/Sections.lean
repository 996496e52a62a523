import FileWatch.Text.Blank
import FileWatch.Text.LetterCase
import FileWatch.Text.Lines
import FileWatch.Text.Quoted
/-!
Configuration files of sections and options. A line that is indented deeper than the option before
it goes on with that option's value, blank lines in a value are kept, and a line that begins with a
number sign or a semicolon is a comment. Option names are in lower case. The section `DEFAULT`
holds what the others leave out.
-/

namespace FileWatch.Config

/-- Options by name, in the order in which they were first given. -/
abbrev Options := List (Text × Text)

structure Sections where
  defaults : Options
  sections : List (Text × Options)
  deriving DecidableEq, Repr

inductive SectionsError where
  | noSection (line : Nat) (content : Text)
  | duplicateSection (line : Nat) (name : Text)
  | duplicateOption (line : Nat) (sectionName option : Text)
  | malformed (lines : List (Nat × Text))
  deriving DecidableEq, Repr

def sourceName (path : Text) : Text := ("PosixPath(" : Text) ++ path.quoted ++ ")"

def lineNumber (n : Nat) : Text := Text.padStart ' ' 2 (Text.ofNat n)

def SectionsError.message (path : Text) : SectionsError → Text
  | .noSection line content =>
    ("File contains no section headers.\nfile: " : Text) ++ sourceName path ++ ", line: " ++
      Text.ofNat line ++ "\n" ++ content.quoted
  | .duplicateSection line name =>
    place line ++ ("section " : Text) ++ name.quoted ++ " already exists"
  | .duplicateOption line name option =>
    place line ++ ("option " : Text) ++ option.quoted ++ " in section " ++ name.quoted ++
      " already exists"
  | .malformed lines =>
    ("Source contains parsing errors: " : Text) ++ sourceName path ++
      lines.flatMap fault
where
  place (line : Nat) : Text :=
    ("While reading from " : Text) ++ sourceName path ++ " [line " ++ lineNumber line ++ "]: "
  fault : Nat × Text → Text := fun (line, content) =>
    ("\n\t[line " : Text) ++ lineNumber line ++ "]: " ++ content.quoted

def defaultSection : Text := "DEFAULT"

abbrev Draft := List (Text × List Text)

/-- How far a file has been read: the sections so far, the one that is open, the option to which a
continuation belongs, that option's indentation, and the lines that could not be read. -/
structure Progress where
  drafts : List (Text × Draft) := [(defaultSection, [])]
  current : Option Text := none
  option : Text := []
  indent : Nat := 0
  faults : List (Nat × Text) := []
  deriving DecidableEq, Repr

namespace Progress

def draft (p : Progress) (name : Text) : Draft := (p.drafts.lookup name).getD []

def update (p : Progress) (f : Draft → Draft) : Progress :=
  match p.current with
  | none => p
  | some name =>
    { p with drafts := p.drafts.map fun (n, d) => if n = name then (n, f d) else (n, d) }

def extend (p : Progress) (line : Text) : Progress :=
  p.update fun d => d.map fun (n, ls) => if n = p.option then (n, ls ++ [line]) else (n, ls)

end Progress

def headerName? (line : Text) : Option Text :=
  match line with
  | c :: rest =>
    if c = '[' then
      let name := (rest.reverse.dropWhile fun c : CodePoint => c != ']').drop 1
      if name.isEmpty then none else some name.reverse
    else none
  | [] => none

def isDelimiter (c : CodePoint) : Bool := c = '=' || c = ':'

/-- The name and the value of an option, which stand around the first delimiter. -/
def splitOption? (line : Text) : Option (Text × Text) :=
  let name : Text := line.takeWhile fun c => !isDelimiter c
  match line.drop name.length with
  | _ :: value => some (Text.trimEnd CodePoint.isBlank name, Text.strip value)
  | [] => none

/-- Opens a section. Only the section of the defaults may be opened twice. -/
def openSection (p : Progress) (line : Nat) (name : Text) : Except SectionsError Progress :=
  if name = defaultSection then .ok { p with current := some name, option := [] }
  else if (p.drafts.lookup name).isSome then .error (.duplicateSection line name)
  else .ok { p with drafts := p.drafts ++ [(name, [])], current := some name, option := [] }

/-- Reads an option of the open section `name` from the line `content`, which is `value` without
the white space around it. An option without a name is an error of the file, but is still kept. -/
def addOption (p : Progress) (name : Text) (line : Nat) (content value : Text) :
    Except SectionsError Progress :=
  match splitOption? value with
  | none => .ok { p with faults := p.faults ++ [(line, content)] }
  | some (option, first) =>
    let p := if option.isEmpty then { p with faults := p.faults ++ [(line, content)] } else p
    let option := option.lower
    if ((p.draft name).lookup option).isSome then .error (.duplicateOption line name option)
    else .ok { p.update (· ++ [(option, [first])]) with option }

def isComment (value : Text) : Bool :=
  match value with
  | c :: _ => c = '#' || c = ';'
  | [] => false

def readLine (p : Progress) (line : Nat) (content : Text) : Except SectionsError Progress :=
  let value := Text.strip content
  if isComment value then .ok p
  else if value.isEmpty then .ok (if p.option.isEmpty then p else p.extend [])
  else
    let indent := (content.takeWhile CodePoint.isBlank).length
    if !p.option.isEmpty && p.indent < indent then .ok (p.extend value)
    else
      let p := { p with indent }
      match headerName? value, p.current with
      | some name, _ => openSection p line name
      | none, none => .error (.noSection line content)
      | none, some name => addOption p name line content value

def readLines (p : Progress) (line : Nat) : List Text → Except SectionsError Progress
  | [] => .ok p
  | content :: rest => do readLines (← readLine p line content) (line + 1) rest

/-- The options of a section whose values are complete: the lines of a value are joined, and white
space at its end is dropped. -/
def finish (d : Draft) : Options :=
  d.map fun (name, lines) => (name, Text.trimEnd CodePoint.isBlank (Text.join ['\n'] lines))

def readSections (file : Text) : Except SectionsError Sections := do
  let p ← readLines {} 1 (Text.lines (Text.unifyBreaks file))
  if !p.faults.isEmpty then throw (.malformed p.faults)
  let all := p.drafts.map fun (name, d) => (name, finish d)
  pure ⟨(all.lookup defaultSection).getD [], all.filter fun (name, _) => name != defaultSection⟩

end FileWatch.Config
