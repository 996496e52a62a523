import FileWatch.Report.Colour
/-!
Styles by name. A style is named by words: attributes, the word `not` in front of one, a colour, a
background after the word `on`, and an address after the word `link`. Names with the same effect
have the same normal form, so that a style can be ended under another name than it was begun.
-/

namespace FileWatch

inductive Attribute where
  | bold
  | dim
  | italic
  | underline
  | blink
  | blink2
  | reverse
  | conceal
  | strike
  | underline2
  | frame
  | encircle
  | overline
  deriving DecidableEq, Repr

namespace Attribute

def all : List Attribute :=
  [bold, dim, italic, underline, blink, blink2, reverse, conceal, strike, underline2, frame,
    encircle, overline]

def words : Attribute → List String
  | bold => ["bold", "b"]
  | dim => ["dim", "d"]
  | italic => ["italic", "i"]
  | underline => ["underline", "u"]
  | blink => ["blink"]
  | blink2 => ["blink2"]
  | reverse => ["reverse", "r"]
  | conceal => ["conceal", "c"]
  | strike => ["strike", "s"]
  | underline2 => ["underline2", "uu"]
  | frame => ["frame"]
  | encircle => ["encircle"]
  | overline => ["overline", "o"]

def name (a : Attribute) : String := a.words.headD ""

def ofWord? (word : Text) : Option Attribute :=
  all.find? fun a => a.words.any fun w => word = Text.ofString w

end Attribute

/-- A style. Of two settings for one attribute the first counts. -/
structure Style where
  attributes : List (Attribute × Bool) := []
  colour : Option Text := none
  background : Option Text := none
  link : Option Text := none
  deriving DecidableEq, Repr

namespace Style

def readWords (s : Style) : List Text → Except ColourError Style
  | [] => .ok s
  | given :: rest =>
    let word := Text.lower given
    if word = Text.ofString "on" then
      match rest with
      | [] => .error .unknown
      | background :: rest => do
        readWords { s with background := some (← Colour.read background) } rest
    else if word = Text.ofString "not" then
      match rest with
      | [] => .error .unknown
      | feature :: rest =>
        match Attribute.ofWord? feature with
        | some a => readWords { s with attributes := (a, false) :: s.attributes } rest
        | none => .error .unknown
    else if word = Text.ofString "link" then
      match rest with
      | [] => .error .unknown
      | address :: rest => readWords { s with link := some address } rest
    else
      match Attribute.ofWord? word with
      | some a => readWords { s with attributes := (a, true) :: s.attributes } rest
      | none => do readWords { s with colour := some (← Colour.read word) } rest

def words (s : Style) : List Text :=
  (Attribute.all.flatMap fun a =>
    match s.attributes.lookup a with
    | some true => [Text.ofString a.name]
    | some false => [("not " : Text) ++ a.name]
    | none => []) ++
  s.colour.toList ++
  (s.background.toList.map fun c => ("on " : Text) ++ c) ++
  s.link.toList.map fun address => ("link " : Text) ++ address

/-- The normal form of a style's name. The style without any setting is `none`, and a name of no
style is in lower case. -/
def normalName (name : Text) : Except ColourError Text :=
  let plain : Text := "none"
  if Text.strip name = plain then .ok plain
  else
    match readWords {} (Text.words name) with
    | .ok s => .ok (if s.words.isEmpty then plain else Text.join " " s.words)
    | .error .unknown => .ok (Text.strip name).lower
    | .error e => .error e

end Style

end FileWatch
