import FileWatch.Text.Blank
import FileWatch.Text.Width
/-!
Text in columns of a fixed width. Words stay whole where they can: one that does not fit into the
rest of a line begins the next, and one that fits into no line is cut.
-/

namespace FileWatch.Text

def tabStop : Nat := 8

def expandTabs (column : Nat) : Text → Text
  | [] => []
  | c :: rest =>
    if c = '\t' then
      let gap := tabStop - column % tabStop
      (List.replicate gap ' ' : Text) ++ expandTabs (column + gap) rest
    else c :: expandTabs (column + c.width) rest

/-- A line cut into words, each with the white space after it. `word` holds the word so far, last
code point first. White space at the start belongs to the first word, and a line of nothing but
white space has no words. -/
def wordsOf (word : Text) : Text → List Text
  | [] => if isBlank word then [] else [word.reverse]
  | c :: rest =>
    let complete := !isBlank word && (word.head?.map CodePoint.isBlank).getD false
    if complete && !c.isBlank then word.reverse :: wordsOf [c] rest
    else wordsOf (c :: word) rest

def chop (width used : Nat) (part : Text) : Text → List Text
  | [] => [part.reverse]
  | c :: rest =>
    if width < used + c.width then part.reverse :: chop width c.width [c] rest
    else chop width (used + c.width) (c :: part) rest

/-- Lays out words after those that stand in the line so far, which is `used` wide. -/
def layOut (width used : Nat) (line : Text) : List Text → List Text
  | [] => [line]
  | word :: rest =>
    let core := Text.width (trimEnd CodePoint.isBlank word)
    if used + core ≤ width then layOut width (used + Text.width word) (line ++ word) rest
    else
      let parts := if width < core then chop width 0 [] word else [word]
      let last := parts.getLast?.getD []
      (if line.isEmpty then [] else [line]) ++ parts.dropLast ++
        layOut width (Text.width last) last rest

/-- The code points at the start of a line that fit into `width`; where a wide one is cut, a space
takes its place. -/
def crop (width : Nat) : Text → Text
  | [] => []
  | c :: rest =>
    if c.width ≤ width then c :: crop (width - c.width) rest
    else if width = 0 then [] else [' ']

def cutTo (width : Nat) (line : Text) : Text :=
  let blank := (line.reverse.takeWhile CodePoint.isBlank).length
  crop width (line.take (line.length - min blank (line.length - width)))

def wrap (width : Nat) (t : Text) : List Text :=
  (t.split (· = '\n')).flatMap fun line =>
    let line := expandTabs 0 line
    let words := wordsOf [] line
    (if words.isEmpty then [line] else layOut width 0 [] words).map (cutTo width)

end FileWatch.Text
