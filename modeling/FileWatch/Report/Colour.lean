import FileWatch.Number.Numeral
import FileWatch.Text.LetterCase
import FileWatch.Text.Quoted
/-!
Colours by name. A colour is one of the named ones, a number of the palette, or a mixture of red,
green and blue. Two spellings that differ only in letter case name the same colour.
-/

namespace FileWatch

/-- Why a word names no colour. A mixture must have numbers for its parts; where one of them is
none, that is a fault of its own. -/
inductive ColourError where
  | unknown
  | part (literal : Text) (e : Numeral.ReadError)
  deriving DecidableEq, Repr

namespace Colour

def plainNames : List String := [
  "default", "black", "red", "green", "yellow", "blue", "magenta", "cyan", "white",
  "bright_black", "bright_red", "bright_green", "bright_yellow", "bright_blue", "bright_magenta",
  "bright_cyan", "bright_white", "navy_blue", "dark_blue", "dark_green", "dark_cyan",
  "light_sea_green", "dark_turquoise", "medium_spring_green", "dark_red", "purple", "blue_violet",
  "medium_purple", "dark_sea_green", "steel_blue", "cornflower_blue", "cadet_blue",
  "medium_turquoise", "dark_magenta", "dark_violet", "light_slate_grey", "light_slate_gray",
  "light_slate_blue", "light_green", "medium_violet_red", "dark_orange", "indian_red",
  "hot_pink", "medium_orchid", "dark_goldenrod", "rosy_brown", "dark_khaki", "light_steel_blue",
  "green_yellow", "orchid", "violet", "tan", "light_coral", "sandy_brown"]

def greyShades : List Nat := [
  0, 3, 7, 11, 15, 19, 23, 27, 30, 35, 37, 39, 42, 46, 50, 53, 54, 58, 62, 63, 66, 69, 70, 74, 78,
  82, 84, 85, 89, 93, 100]

def shadedNames : List (String × List Nat) := [
  ("red", [1, 3]), ("green", [1, 3, 4]), ("yellow", [1, 2, 3, 4]), ("blue", [1, 3]),
  ("magenta", [1, 2, 3]), ("cyan", [1, 2, 3]), ("grey", greyShades), ("gray", greyShades),
  ("deep_sky_blue", [1, 2, 3, 4]), ("dodger_blue", [1, 2, 3]), ("spring_green", [1, 2, 3, 4]),
  ("turquoise", [2, 4]), ("deep_pink", [1, 2, 3, 4]), ("purple", [3, 4]), ("orange", [1, 3, 4]),
  ("medium_purple", [1, 2, 3, 4]), ("slate_blue", [1, 3]), ("royal_blue", [1]),
  ("chartreuse", [1, 2, 3, 4]), ("dark_sea_green", [1, 2, 3, 4]), ("pale_turquoise", [1, 4]),
  ("steel_blue", [1, 3]), ("sky_blue", [1, 2, 3]), ("pale_green", [1, 3]),
  ("sea_green", [1, 2, 3]), ("aquamarine", [1, 3]), ("dark_slate_gray", [1, 2, 3]),
  ("light_pink", [1, 3, 4]), ("plum", [1, 2, 3, 4]), ("wheat", [1, 4]),
  ("dark_olive_green", [1, 2, 3]), ("light_sky_blue", [1, 3]), ("dark_orange", [3]),
  ("indian_red", [1]), ("hot_pink", [2, 3]), ("medium_orchid", [1, 3]), ("light_salmon", [1, 3]),
  ("gold", [1, 3]), ("navajo_white", [1, 3]), ("light_steel_blue", [1, 3]),
  ("light_cyan", [1, 3]), ("orchid", [1, 2]), ("pink", [1, 3]), ("light_goldenrod", [1, 2, 3]),
  ("misty_rose", [1, 3]), ("thistle", [1, 3]), ("khaki", [1, 3]), ("light_yellow", [3]),
  ("honeydew", [2]), ("orange_red", [1]), ("salmon", [1]), ("pale_violet_red", [1]),
  ("cornsilk", [1])]

def isNamed (word : Text) : Bool :=
  plainNames.any (fun name => word = Text.ofString name) ||
    shadedNames.any fun (name, shades) =>
      shades.any fun shade => word = Text.ofString name ++ Text.ofNat shade

def enclosed? (before word : Text) : Option Text :=
  if before.isPrefixOf word && word.getLast? = some ')' then
    some ((word.drop before.length).dropLast)
  else none

def isHexDigit (c : CodePoint) : Bool := c.isAsciiDigit || (0x61 ≤ c.val && c.val ≤ 0x66)

def isHexadecimal (word : Text) : Bool :=
  match word with
  | c :: digits => c = '#' && digits.length = 6 && digits.all isHexDigit
  | [] => false

def isNumbered (word : Text) : Bool :=
  match enclosed? "color(" word with
  | some digits =>
    !digits.isEmpty && digits.length ≤ 3 && digits.all CodePoint.isAsciiDigit &&
      Numeral.digitsValue digits ≤ 255
  | none => false

/-- Whether a word is a mixture of three parts up to 255. -/
def isMixture (word : Text) : Except ColourError Bool :=
  match enclosed? "rgb(" word with
  | none => .ok false
  | some inside =>
    if inside.isEmpty || !(inside.all fun c => c = ',' || c.digit?.isSome) then .ok false
    else
      match Text.split (· = ',') inside with
      | [red, green, blue] => do
        let parts ← [red, green, blue].mapM fun part =>
          (Numeral.read part).mapError (.part part.quoted)
        pure (parts.all (· ≤ 255))
      | _ => .ok false

def read (word : Text) : Except ColourError Text := do
  let word := Text.lower word
  if isNamed word || isHexadecimal word || isNumbered word then pure word
  else if ← isMixture word then pure word
  else throw .unknown

end Colour

end FileWatch
