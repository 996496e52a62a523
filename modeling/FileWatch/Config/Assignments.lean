import FileWatch.Text.Blank
import FileWatch.Text.LetterCase
import FileWatch.Text.Lines
/-!
Files of assignments, one `NAME=value` to a statement. A value may be quoted, and then it may go
over several lines. Statements that cannot be read are passed over. In a value, `${NAME}` and
`${NAME:-default}` stand for what was assigned before or is in the environment.
-/

namespace FileWatch.Config

def isLineBlank (c : CodePoint) : Bool := c.isBlank && c != '\n' && c != '\r'

def isBreak (c : CodePoint) : Bool := c = '\n' || c = '\r'

/-- A statement: a name with its value. A name on its own has no value. -/
structure Assignment where
  name : Text
  value : Option Text
  deriving DecidableEq, Repr

/-- The place of the closing quote, for a text that follows the opening one: the first quote
without a backslash right before it, and failing that the last quote. -/
def closingQuote? (quote : CodePoint) (t : Text) : Option Nat :=
  let rec first (previous : CodePoint) (place : Nat) : Text → Option Nat
    | [] => none
    | c :: rest =>
      if c = quote && previous != '\\' then some place else first c (place + 1) rest
  match first ' ' 0 t with
  | some place => some place
  | none =>
    if List.contains t quote then
      some (t.length - 1 - (t.reverse.takeWhile fun c : CodePoint => c != quote).length)
    else none

def doubleQuoteEscape? (c : CodePoint) : Option CodePoint :=
  if c = '\\' || c = '\'' || c = '"' then some c
  else if c = 'a' then some 7
  else if c = 'b' then some 8
  else if c = 'f' then some 12
  else if c = 'n' then some '\n'
  else if c = 'r' then some '\r'
  else if c = 't' then some '\t'
  else if c = 'v' then some 11
  else none

def singleQuoteEscape? (c : CodePoint) : Option CodePoint :=
  if c = '\\' || c = '\'' then some c else none

def unescape (escape? : CodePoint → Option CodePoint) : Text → Text
  | [] => []
  | [c] => [c]
  | c :: d :: rest =>
    if c = '\\' then
      match escape? d with
      | some e => e :: unescape escape? rest
      | none => c :: unescape escape? (d :: rest)
    else c :: unescape escape? (d :: rest)

def dropComment (t : Text) : Text :=
  let rec go : Text → Text
    | [] => []
    | c :: rest =>
      if c.isBlank && (rest.dropWhile CodePoint.isBlank).head? = some '#' then []
      else c :: go rest
  Text.trimEnd CodePoint.isBlank (go t)

def quotedValue (quote : CodePoint) (escape? : CodePoint → Option CodePoint) (t : Text) :
    Option (Text × Text) := do
  let body := t.drop 1
  let place ← closingQuote? quote body
  some (unescape escape? (body.take place), body.drop (place + 1))

/-- The value after an equal sign, and what follows it. When a quote is not closed, reading stops
in front of it. -/
def value (t : Text) : Except Text (Text × Text) :=
  match t with
  | [] => .ok ([], [])
  | c :: _ =>
    if c = '\'' then
      match quotedValue '\'' singleQuoteEscape? t with
      | some r => .ok r
      | none => .error t
    else if c = '"' then
      match quotedValue '"' doubleQuoteEscape? t with
      | some r => .ok r
      | none => .error t
    else
      .ok (dropComment (t.takeWhile fun c => !isBreak c), t.dropWhile fun c => !isBreak c)

def name (t : Text) : Except Text (Option Text × Text) :=
  let quotedName := (t.drop 1).takeWhile fun c : CodePoint => c != '\''
  let plainName := t.takeWhile fun c : CodePoint => !(c = '=' || c = '#' || c.isBlank)
  match t.head? with
  | none => .error t
  | some c =>
    if c = '#' then .ok (none, t)
    else if c = '\'' then
      match (t.drop 1).drop quotedName.length with
      | [] => .error t
      | _ :: rest => if quotedName.isEmpty then .error t else .ok (some quotedName, rest)
    else if plainName.isEmpty then .error t
    else .ok (some plainName, t.drop plainName.length)

def dropExport (t : Text) : Text :=
  let word : Text := "export"
  let rest := t.drop word.length
  let after := rest.dropWhile isLineBlank
  if word.isPrefixOf t && after.length < rest.length then after else t

def endOfLine (t : Text) : Except Text Text :=
  let blank := t.dropWhile isLineBlank
  let t := if blank.head? = some '#' then blank.dropWhile fun c => !isBreak c else t
  match t.dropWhile isLineBlank with
  | [] => .ok []
  | c :: rest => if isBreak c then .ok rest else .error t

/-- Reads one statement from a text that does not begin with white space. The error is the text
at which the reading stopped. -/
def statement (t : Text) : Except Text (Option Assignment × Text) := do
  let (name?, rest) ← name (dropExport t)
  let rest := rest.dropWhile isLineBlank
  let (value?, rest) ← match rest with
    | c :: more =>
      if c = '=' then do
        let (v, rest) ← value (more.dropWhile isLineBlank)
        pure (some v, rest)
      else pure (none, rest)
    | [] => pure (none, [])
  let rest ← endOfLine rest
  pure (name?.map fun n => ⟨n, value?⟩, rest)

def afterLine (t : Text) : Text := (t.dropWhile fun c => !isBreak c).drop 1

def statements : Nat → Text → List Assignment
  | 0, _ => []
  | n + 1, t =>
    match t.dropWhile CodePoint.isBlank with
    | [] => []
    | c :: rest =>
      match statement (c :: rest) with
      | .ok (a?, rest) => a?.toList ++ statements n rest
      | .error rest => statements n (afterLine rest)

def substitution? (t : Text) : Option (Text × Text × Nat) :=
  match t with
  | c :: body =>
    let name := body.takeWhile fun c : CodePoint => c != '\x7d' && c != ':'
    let after := body.drop name.length
    let mark : Text := ":-"
    let fallback :=
      if mark.isPrefixOf after then (after.drop 2).takeWhile fun c : CodePoint => c != '\x7d'
      else []
    let size := name.length + if mark.isPrefixOf after then 2 + fallback.length else 0
    if c = '\x7b' && (body.drop size).head? = some '\x7d' then some (name, fallback, size + 2)
    else none
  | [] => none

def substituteFrom (get? : Text → Option Text) : (skip : Nat) → Text → Text
  | _, [] => []
  | skip + 1, _ :: rest => substituteFrom get? skip rest
  | 0, c :: rest =>
    if c = '$' then
      match substitution? rest with
      | some (name, fallback, size) => (get? name).getD fallback ++ substituteFrom get? size rest
      | none => c :: substituteFrom get? 0 rest
    else c :: substituteFrom get? 0 rest

/-- The names that were assigned so far. A name without a value stands for nothing. -/
abbrev Assigned := List (Text × Option Text)

def assign (name : Text) (value : Option Text) : Assigned → Assigned
  | [] => [(name, value)]
  | (n, v) :: rest => if n = name then (n, value) :: rest else (n, v) :: assign name value rest

/-- Replaces the references in the values, in order. What the file assigns goes before the
environment, and a name without a value is as good as an empty one. -/
def resolve (environment : List (Text × Text)) (all : List Assignment) : Assigned :=
  all.foldl (fun assigned a =>
    let get? (name : Text) : Option Text :=
      match assigned.lookup name with
      | some v => some (v.getD [])
      | none => environment.lookup name
    assign a.name (a.value.map (substituteFrom get? 0)) assigned) []

def readAssignments (environment : List (Text × Text)) (file : Text) : List (Text × Text) :=
  let text := Text.unifyBreaks file
  let assigned := resolve environment (statements (text.length + 1) text)
  assigned.foldl (fun all (name, value?) =>
    match value? with
    | none => all
    | some v =>
      let name := Text.lower name
      if (all.lookup name).isSome then all.map fun (n, w) => if n = name then (n, v) else (n, w)
      else all ++ [(name, v)]) []

end FileWatch.Config
