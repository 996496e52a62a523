import FileWatch.Number.Binary64
/-!
The decimal form of a double: the fewest digits that read back as the same double, and of those
the nearest. Numbers from 0.0001 up to 10 ^ 16 are written positionally, the others with an
exponent.
-/

namespace FileWatch.Binary64

/-- Decimal digits, the first of which stands for tenths times `10 ^ point`. -/
structure Decimal where
  digits : Nat
  point : Int
  deriving DecidableEq, Repr

/-- The reals that round to `mantissa * 2 ^ exponent`, in units of a quarter of `2 ^ exponent`.
Below a power of two the spacing halves; the ends belong to the interval of an even mantissa. -/
structure Interval where
  low : Nat
  high : Nat
  closed : Bool

def interval (mantissa : Nat) (exponent : Int) : Interval where
  low := 4 * mantissa - if mantissa = 2 ^ 52 && exponent != leastExponent then 1 else 2
  high := 4 * mantissa + 2
  closed := mantissa % 2 = 0

def Interval.contains (i : Interval) (scale unit x : Nat) : Bool :=
  if i.closed then i.low * scale ≤ x * unit && x * unit ≤ i.high * scale
  else i.low * scale < x * unit && x * unit < i.high * scale

def placesBeforePoint (num den : Nat) : Int :=
  let guess : Int := (Nat.toDigits 10 num).length - (Nat.toDigits 10 den).length
  -- `num / den` lies between `10 ^ (guess - 1)` and `10 ^ (guess + 1)`
  if den * 10 ^ guess.toNat ≤ num * 10 ^ (-guess).toNat then guess + 1 else guess

/-- The point of a grid of `count` digits that reads back as the double, if there is one. Only
the two neighbours of the value on the grid can be the nearest. -/
def onGrid (mantissa : Nat) (exponent places : Int) (i : Interval) (count : Nat) :
    Option Nat :=
  let power := places - count
  -- both the quarter of the double's unit and the step of the grid, as whole numbers
  let scale := 2 ^ (exponent - 2).toNat * 10 ^ (-power).toNat
  let unit := 2 ^ (2 - exponent).toNat * 10 ^ power.toNat
  let value := 4 * mantissa * scale
  let below := value / unit
  let nearer := if 2 * (value % unit) ≤ unit then [below, below + 1] else [below + 1, below]
  nearer.find? (i.contains scale unit)

/-- The shortest digits of a positive finite double. Seventeen digits always suffice. -/
def shortest (mantissa : Nat) (exponent : Int) : Decimal :=
  let places := placesBeforePoint (mantissa * 2 ^ exponent.toNat) (2 ^ (-exponent).toNat)
  let i := interval mantissa exponent
  match (List.range 17).findSome? fun n =>
      (onGrid mantissa exponent places i (n + 1)).map fun digits => (digits, n + 1) with
  | some (digits, count) =>
    -- a carry out of the grid makes one digit more
    if digits = 10 ^ count then ⟨1, places + 1⟩ else ⟨digits, places⟩
  | none => ⟨0, 0⟩

def exponentPart (e : Int) : Text :=
  (if e < 0 then ['e', '-'] else ['e', '+'] : Text) ++
    Text.padStart '0' 2 (Text.ofNat e.natAbs)

def Decimal.write (d : Decimal) : Text :=
  let digits := Text.ofNat d.digits
  let count : Int := digits.length
  if -4 < d.point && d.point ≤ 0 then
    "0." ++ List.replicate (-d.point).toNat ('0' : CodePoint) ++ digits
  else if 0 < d.point && d.point ≤ 16 then
    if count ≤ d.point then
      digits ++ List.replicate (d.point - count).toNat ('0' : CodePoint) ++ (".0" : Text)
    else digits.take d.point.toNat ++ ("." : Text) ++ digits.drop d.point.toNat
  else
    let fraction : Text := if count = 1 then [] else '.' :: digits.drop 1
    digits.take 1 ++ fraction ++ exponentPart (d.point - 1)

def writeNaming (infinity nanName : Text) : Binary64 → Text
  | .nan => nanName
  | .infinite negative => if negative then '-' :: infinity else infinity
  | .finite negative mantissa exponent =>
    let size : Text := if mantissa = 0 then "0.0" else (shortest mantissa exponent).write
    if negative then '-' :: size else size

def write : Binary64 → Text := writeNaming "inf" "nan"

end FileWatch.Binary64
