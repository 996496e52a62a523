import FileWatch.Number.Numeral
/-!
Double-precision numbers as exact values. A decimal numeral and a quotient of integers are rounded
to the nearest double, a tie going to the even mantissa.
-/

namespace FileWatch

/-- A finite double is `mantissa * 2 ^ exponent`, with the sign apart so that there are two zeros.
Its mantissa has 53 bits, or fewer at the least exponent, so each value has one form. -/
inductive Binary64 where
  | finite (negative : Bool) (mantissa : Nat) (exponent : Int)
  | infinite (negative : Bool)
  | nan
  deriving DecidableEq, Repr

namespace Binary64

def leastExponent : Int := -1074

def greatestExponent : Int := 971

def zero (negative : Bool) : Binary64 := .finite negative 0 leastExponent

/-- `num / den` rounded to an integer, a tie going to the even one. -/
def divideToEven (num den : Nat) : Nat :=
  let quotient := num / den
  let rest := 2 * (num % den)
  if rest < den then quotient
  else if rest = den then quotient + quotient % 2
  else quotient + 1

def scaled (num den : Nat) (exponent : Int) : Nat × Nat :=
  (num * 2 ^ (-exponent).toNat, den * 2 ^ exponent.toNat)

def ofRatio (negative : Bool) (num den : Nat) : Binary64 :=
  if num = 0 then zero negative
  else
    let guess : Int := num.log2 - den.log2 - 53
    let (n, d) := scaled num den guess
    let exponent := max leastExponent (if n / d < 2 ^ 53 then guess else guess + 1)
    let (n, d) := scaled num den exponent
    let mantissa := divideToEven n d
    let (mantissa, exponent) :=
      if mantissa = 2 ^ 53 then (2 ^ 52, exponent + 1) else (mantissa, exponent)
    if greatestExponent < exponent then .infinite negative
    else .finite negative mantissa exponent

/-- The double nearest to `digits * 10 ^ power`. A value of over 310 or under -330 decimal places
is out of reach on either side and is not worked out. -/
def ofDecimal (negative : Bool) (digits : Nat) (power : Int) : Binary64 :=
  let places : Int := (Nat.toDigits 10 digits).length + power
  if digits = 0 then zero negative
  else if 310 < places then .infinite negative
  else if places < -330 then zero negative
  else ofRatio negative (digits * 10 ^ power.toNat) (10 ^ (-power).toNat)

def ofInt (n : Int) : Binary64 := ofRatio (n < 0) n.natAbs 1

def truncate? : Binary64 → Option Int
  | .finite negative mantissa exponent =>
    let size : Int := (mantissa * 2 ^ exponent.toNat / 2 ^ (-exponent).toNat : Nat)
    some (if negative then -size else size)
  | _ => none

def toInt? : Binary64 → Option Int
  | .finite negative mantissa exponent =>
    if mantissa * 2 ^ exponent.toNat % 2 ^ (-exponent).toNat = 0 then
      truncate? (.finite negative mantissa exponent)
    else none
  | _ => none

/-- Equality of values: the two zeros are equal, and NaN equals nothing. -/
def sameValue : Binary64 → Binary64 → Bool
  | .nan, _ => false
  | .finite _ 0 _, .finite _ 0 _ => true
  | x, y => x = y

def isPositive : Binary64 → Bool
  | .finite negative mantissa _ => !negative && mantissa != 0
  | .infinite negative => !negative
  | .nan => false

/-- Whether a double is zero or less; NaN is not. -/
def isAtMostZero : Binary64 → Bool
  | .finite negative mantissa _ => negative || mantissa == 0
  | .infinite negative => negative
  | .nan => false

def readExponent (t : Text) : Option Int :=
  let (negative, digits) := Numeral.takeSign t
  if digits.isEmpty || !digits.all CodePoint.isAsciiDigit then none
  else some (if negative then -(Numeral.digitsValue digits : Int) else Numeral.digitsValue digits)

def isExponentMark (c : CodePoint) : Bool := c = 'e' || c = 'E'

def readUnsigned (negative : Bool) (t : Text) : Option Binary64 :=
  let whole := t.takeWhile CodePoint.isAsciiDigit
  let afterWhole := t.dropWhile CodePoint.isAsciiDigit
  let (places, rest) :=
    match afterWhole with
    | c :: r =>
      if c = '.' then (r.takeWhile CodePoint.isAsciiDigit, r.dropWhile CodePoint.isAsciiDigit)
      else ([], afterWhole)
    | [] => ([], [])
  let digits := whole ++ places
  let build (exponent : Int) : Option Binary64 :=
    if digits.isEmpty then none
    else some (ofDecimal negative (Numeral.digitsValue digits) (exponent - places.length))
  match rest with
  | [] => build 0
  | c :: r => if isExponentMark c then (readExponent r).bind build else none

def asciiLower (c : CodePoint) : CodePoint :=
  if 0x41 ≤ c.val && c.val ≤ 0x5a then Fin.ofNat 0x110000 (c.val + 0x20) else c

/-- The number that an ASCII text denotes: a decimal number with single underscores between
digits, an infinity or a NaN, in any letter case and with white space around it. -/
def readPlain (t : Text) : Option Binary64 :=
  let body := t.trim CodePoint.isAsciiBlank
  if !Numeral.underscoresSeparate ' ' body then none
  else
    let (negative, unsigned) := Numeral.takeSign (body.filter (· != '_'))
    let name := unsigned.map asciiLower
    if name = "inf" || name = "infinity" then some (.infinite negative)
    else if name = "nan" then some .nan
    else readUnsigned negative unsigned

def read (t : Text) : Option Binary64 := readPlain (Numeral.plain t)

end Binary64

end FileWatch
