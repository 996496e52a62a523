/-!
Text as it travels to and from the daemon: code points in order. A JSON document may hold a lone
surrogate, which no `String` can, so code points are numbers and not characters.
-/

namespace FileWatch

-- A power of natural numbers is the core library's own, whatever other instances are in scope.
attribute [instance (high), default_instance high] instPowNat

/-- A Unicode code point; surrogates are included. -/
abbrev CodePoint := Fin 0x110000

instance CodePoint.instNeZero : @NeZero Nat Zero.ofOfNat0 0x110000 := ⟨Nat.succ_ne_zero _⟩

abbrev Text := List CodePoint

abbrev Bytes := List UInt8

def CodePoint.ofChar (c : Char) : CodePoint :=
  ⟨c.toNat, by
    have valid := c.valid
    unfold UInt32.isValidChar Nat.isValidChar at valid
    have same : c.toNat = c.val.toNat := rfl
    omega⟩

instance : Coe Char CodePoint := ⟨CodePoint.ofChar⟩

def Text.ofString (s : String) : Text := s.toList.map CodePoint.ofChar

instance : Coe String Text := ⟨Text.ofString⟩

namespace CodePoint

def isHighSurrogate (c : CodePoint) : Bool := 0xD800 ≤ c.val && c.val ≤ 0xDBFF

def isLowSurrogate (c : CodePoint) : Bool := 0xDC00 ≤ c.val && c.val ≤ 0xDFFF

def isSurrogate (c : CodePoint) : Bool := 0xD800 ≤ c.val && c.val ≤ 0xDFFF

def toChar? (c : CodePoint) : Option Char :=
  if h : c.val.isValidChar then some (Char.ofNatAux c.val h) else none

end CodePoint

namespace Text

/-- The string of a text that holds no lone surrogate. -/
def toString? (t : Text) : Option String :=
  (t.mapM CodePoint.toChar?).map String.ofList

def trim (p : CodePoint → Bool) (t : Text) : Text :=
  ((t.dropWhile p).reverse.dropWhile p).reverse

def trimEnd (p : CodePoint → Bool) (t : Text) : Text :=
  (t.reverse.dropWhile p).reverse

def join (separator : Text) : List Text → Text
  | [] => []
  | [t] => t
  | t :: rest => t ++ separator ++ join separator rest

def split (p : CodePoint → Bool) : Text → List Text
  | [] => [[]]
  | c :: rest =>
    if p c then [] :: split p rest
    else
      match split p rest with
      | [] => [[c]]
      | part :: others => (c :: part) :: others

def ofNat (n : Nat) : Text := (Nat.toDigits 10 n).map CodePoint.ofChar

def ofInt (n : Int) : Text :=
  if n < 0 then '-' :: ofNat n.natAbs else ofNat n.natAbs

/-- `t` with `fill` put in front until it has `width` code points. -/
def padStart (fill : CodePoint) (width : Nat) (t : Text) : Text :=
  List.replicate (width - t.length) fill ++ t

def hexadecimal (width n : Nat) : Text :=
  padStart '0' width ((Nat.toDigits 16 n).map CodePoint.ofChar)

end Text

end FileWatch
