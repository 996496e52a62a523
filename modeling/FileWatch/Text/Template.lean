import FileWatch.Number.Numeral
import FileWatch.Text.Quoted
/-!
Templates: texts with marks, each a percent sign and a letter, for the one argument that is put in
their place. A doubled percent sign stands for itself.
-/

namespace FileWatch.Template

inductive Error where
  | needsMapping
  | needsWidth
  | widthTooBig
  | precisionTooBig
  | incomplete
  | unsupported (letter : CodePoint) (position : Nat)
  | needsInteger (letter : CodePoint)
  | needsReal (letter : CodePoint)
  | needsFloat
  | needsCharacter
  | tooFewArguments
  | tooManyArguments
  deriving DecidableEq, Repr

def Error.message : Error → Text
  | .needsMapping => "format requires a mapping"
  | .needsWidth => "* wants int"
  | .widthTooBig => "width too big"
  | .precisionTooBig => "precision too big"
  | .incomplete => "incomplete format"
  | .unsupported letter position =>
    let shown : CodePoint := if 31 ≤ letter.val && letter.val ≤ 126 then letter else '?'
    ("unsupported format character '" : Text) ++ [shown] ++ ("' (0x" : Text) ++
      Text.hexadecimal 1 letter.val ++ ") at index " ++ Text.ofNat position
  | .needsInteger letter => '%' :: letter :: " format: an integer is required, not str"
  | .needsReal letter => '%' :: letter :: " format: a real number is required, not str"
  | .needsFloat => "must be real number, not str"
  | .needsCharacter => "%c requires int or char"
  | .tooFewArguments => "not enough arguments for format string"
  | .tooManyArguments => "not all arguments converted during string formatting"

structure Mark where
  leftAligned : Bool
  width : Nat
  precision : Option Nat
  letter : CodePoint
  deriving DecidableEq, Repr

def oneOf (letters : String) (c : CodePoint) : Bool := List.contains (Text.ofString letters) c

def number (limit : Nat) (tooBig : Error) (used : Bool) (t : Text) : Except Error (Nat × Text) :=
  match t with
  | c :: _ =>
    if c = '*' then .error (if used then .tooFewArguments else .needsWidth)
    else
      let value := Numeral.digitsValue (t.takeWhile CodePoint.isAsciiDigit)
      if limit < value then .error tooBig else .ok (value, t.dropWhile CodePoint.isAsciiDigit)
  | [] => .ok (0, [])

/-- The mark after a percent sign, with the rest of the template; `used` tells whether the
argument has been taken. -/
def mark (used : Bool) (t : Text) : Except Error (Mark × Text) := do
  if t.head? = some '(' then throw .needsMapping
  let flags := t.takeWhile (oneOf "-+ #0")
  let (width, rest) ← number (2 ^ 63 - 1) .widthTooBig used (t.drop flags.length)
  let (precision, rest) ← match rest with
    | c :: more =>
      if c = '.' then do
        let (p, rest) ← number (2 ^ 31 - 1) .precisionTooBig used more
        pure (some p, rest)
      else pure (none, rest)
    | [] => pure (none, [])
  let rest := match rest with
    | c :: more => if oneOf "hlL" c then more else rest
    | [] => []
  match rest with
  | letter :: rest => pure (⟨List.contains flags '-', width, precision, letter⟩, rest)
  | [] => throw .incomplete

def asciiEscape (c : CodePoint) : Text :=
  if c.val < 0x80 then [c]
  else if c.val < 0x100 then "\\x" ++ Text.hexadecimal 2 c.val
  else if c.val < 0x10000 then "\\u" ++ Text.hexadecimal 4 c.val
  else "\\U" ++ Text.hexadecimal 8 c.val

def Mark.show (m : Mark) (position : Nat) (argument : Text) : Except Error Text := do
  let shown : Text ←
    if m.letter = 's' then pure argument
    else if m.letter = 'r' then pure argument.quoted
    else if m.letter = 'a' then pure (argument.quoted.flatMap asciiEscape)
    else if m.letter = 'c' then if argument.length = 1 then pure argument else throw .needsCharacter
    else if oneOf "oxX" m.letter then throw (.needsInteger m.letter)
    else if oneOf "diu" m.letter then throw (.needsReal m.letter)
    else if oneOf "eEfFgG" m.letter then throw .needsFloat
    else throw (.unsupported m.letter position)
  let cut := match m.precision with
    | some p => if m.letter = 'c' then shown else shown.take p
    | none => shown
  let fill : Text := List.replicate (m.width - cut.length) ' '
  pure (if m.leftAligned then cut ++ fill else fill ++ cut)

/-- Fills the rest of a template from `position` on; the first `skip` code points belong to a mark
that has been filled. -/
def fillFrom (argument : Text) (used : Bool) (position : Nat) :
    (skip : Nat) → Text → Except Error Text
  | _, [] => if used then .ok [] else .error .tooManyArguments
  | skip + 1, _ :: rest => fillFrom argument used (position + 1) skip rest
  | 0, c :: rest =>
    if c = '%' then do
      let (m, after) ← mark used rest
      let size := rest.length - after.length
      if m.letter = '%' then
        let filled ← fillFrom argument used (position + 1) size rest
        pure ('%' :: filled)
      else if used then throw .tooFewArguments
      else
        let shown ← m.show (position + size) argument
        let filled ← fillFrom argument true (position + 1) size rest
        pure (shown ++ filled)
    else do
      let filled ← fillFrom argument used (position + 1) 0 rest
      pure (c :: filled)

def fill (template argument : Text) : Except Error Text := fillFrom argument false 0 0 template

end FileWatch.Template
