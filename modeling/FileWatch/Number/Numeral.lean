import FileWatch.Text.Blank
/-!
Integers as people write them: decimal digits of any script, an optional sign, single underscores
between digits and white space around the whole. Numerals of more than 4300 digits are refused.
-/

namespace FileWatch

/-- The zeros of the decimal scripts; each is followed by the nine other digits. -/
def decimalZeros : List Nat := [
  0x30, 0x660, 0x6f0, 0x7c0, 0x966, 0x9e6, 0xa66, 0xae6, 0xb66, 0xbe6, 0xc66, 0xce6, 0xd66,
  0xde6, 0xe50, 0xed0, 0xf20, 0x1040, 0x1090, 0x17e0, 0x1810, 0x1946, 0x19d0, 0x1a80, 0x1a90,
  0x1b50, 0x1bb0, 0x1c40, 0x1c50, 0xa620, 0xa8d0, 0xa900, 0xa9d0, 0xa9f0, 0xaa50, 0xabf0, 0xff10,
  0x104a0, 0x10d30, 0x11066, 0x110f0, 0x11136, 0x111d0, 0x112f0, 0x11450, 0x114d0, 0x11650,
  0x116c0, 0x11730, 0x118e0, 0x11950, 0x11c50, 0x11d50, 0x11da0, 0x16a60, 0x16ac0, 0x16b50,
  0x1d7ce, 0x1d7d8, 0x1d7e2, 0x1d7ec, 0x1d7f6, 0x1e140, 0x1e2f0, 0x1e950, 0x1fbf0]

def CodePoint.digit? (c : CodePoint) : Option Nat :=
  (decimalZeros.find? fun first => first ≤ c.val && c.val ≤ first + 9).map (c.val - ·)

def CodePoint.asciiDigit? (c : CodePoint) : Option Nat :=
  if 0x30 ≤ c.val && c.val ≤ 0x39 then some (c.val - 0x30) else none

def CodePoint.isAsciiDigit (c : CodePoint) : Bool := 0x30 ≤ c.val && c.val ≤ 0x39

namespace Numeral

/-- The most digits an integer may have when it is read or written in decimal. -/
def digitLimit : Nat := 4300

structure TooLong where
  deriving DecidableEq, Repr

def TooLong.message (_ : TooLong) : Text :=
  ("Exceeds the limit (4300 digits) for integer string conversion; " : Text) ++
    "use sys.set_int_max_str_digits() to increase the limit"

def write (n : Int) : Except TooLong Text :=
  if n.natAbs < 10 ^ digitLimit then .ok (Text.ofInt n) else .error ⟨⟩

inductive ReadError where
  | malformed
  | tooLong (digits : Nat)
  deriving DecidableEq, Repr

/-- The message for a text that is no numeral, of which at most 200 code points are shown. -/
def malformed (literal : Text) : Text :=
  ("invalid literal for int() with base 10: " : Text) ++ literal.take 200

def tooManyDigits (digits : Nat) : Text :=
  ("Exceeds the limit (4300 digits) for integer string conversion: value has " : Text) ++
    Text.ofNat digits ++ " digits; use sys.set_int_max_str_digits() to increase the limit"

/-- The value of a run of ASCII digits; other code points are passed over. -/
def digitsValue (t : Text) : Nat :=
  t.foldl (fun value c =>
    match c.asciiDigit? with
    | some d => value * 10 + d
    | none => value) 0

/-- `t` in ASCII: digits of any script become ASCII digits and white space outside ASCII becomes
spaces. Whatever else lies outside ASCII becomes a question mark, which is part of no numeral. -/
def plain (t : Text) : Text :=
  t.map fun c =>
    if c.val < 0x80 then c
    else if c.isBlank then ' '
    else match c.digit? with
      | some d => Fin.ofNat 0x110000 (0x30 + d)
      | none => '?'

def plainBytes (bytes : Bytes) : Text :=
  bytes.map fun b => if b < 0x80 then Fin.ofNat 0x110000 b.toNat else '?'

def underscoresSeparate (previous : CodePoint) : Text → Bool
  | [] => previous != '_'
  | c :: rest =>
    (if c = '_' then previous.isAsciiDigit else previous != '_' || c.isAsciiDigit) &&
      underscoresSeparate c rest

def takeSign : Text → Bool × Text
  | [] => (false, [])
  | c :: rest =>
    if c = '-' then (true, rest)
    else if c = '+' then (false, rest)
    else (false, c :: rest)

def isDigitOrUnderscore (c : CodePoint) : Bool := c.isAsciiDigit || c = '_'

def readPlain (t : Text) : Except ReadError Int :=
  let (negative, body) := takeSign (t.dropWhile CodePoint.isAsciiBlank)
  let run := body.takeWhile isDigitOrUnderscore
  let digits := run.countP CodePoint.isAsciiDigit
  if digits = 0 || !underscoresSeparate ' ' run then .error .malformed
  else if digitLimit < digits then .error (.tooLong digits)
  else if (body.dropWhile isDigitOrUnderscore).all CodePoint.isAsciiBlank then
    .ok (if negative then -(digitsValue run : Int) else digitsValue run)
  else .error .malformed

def read (t : Text) : Except ReadError Int := readPlain (plain t)

end Numeral

end FileWatch
