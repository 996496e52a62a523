import FileWatch.Text
/-!
The three kinds of white space: of text in general, of bytes, and of a JSON document.
-/

namespace FileWatch

def blankRanges : List (Nat × Nat) := [
  (0x09, 0x0d), (0x1c, 0x20), (0x85, 0x85), (0xa0, 0xa0), (0x1680, 0x1680), (0x2000, 0x200a),
  (0x2028, 0x2029), (0x202f, 0x202f), (0x205f, 0x205f), (0x3000, 0x3000)]

namespace CodePoint

def isBlank (c : CodePoint) : Bool :=
  blankRanges.any fun (low, high) => low ≤ c.val && c.val ≤ high

def isAsciiBlank (c : CodePoint) : Bool := (0x09 ≤ c.val && c.val ≤ 0x0d) || c.val = 0x20

end CodePoint

def isBlankByte (b : UInt8) : Bool := (0x09 ≤ b && b ≤ 0x0d) || b = 0x20

namespace Text

/-- A text is blank when it holds nothing but white space; the empty text is blank. -/
def isBlank (t : Text) : Bool := t.all CodePoint.isBlank

def strip (t : Text) : Text := t.trim CodePoint.isBlank

def words (t : Text) : List Text := (t.split CodePoint.isBlank).filter fun w => !w.isEmpty

end Text

end FileWatch
