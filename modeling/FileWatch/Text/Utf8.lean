import FileWatch.Text
/-!
UTF-8. Decoding stops at the first bytes that begin no code point and names them; encoding stops
at the first run of surrogates.
-/

namespace FileWatch.Utf8

inductive Fault where
  | invalidStart
  | invalidContinuation
  | unexpectedEnd
  deriving DecidableEq, Repr

/-- The `length` bytes from `position` on are at fault; `first` is the first of them. -/
structure DecodeError where
  fault : Fault
  first : UInt8
  position : Nat
  length : Nat
  deriving DecidableEq, Repr

structure EncodeError where
  first : CodePoint
  position : Nat
  length : Nat
  deriving DecidableEq, Repr

def Fault.message : Fault → Text
  | .invalidStart => "invalid start byte"
  | .invalidContinuation => "invalid continuation byte"
  | .unexpectedEnd => "unexpected end of data"

def span (position length : Nat) : Text :=
  if length = 1 then Text.ofNat position
  else Text.ofNat position ++ "-" ++ Text.ofNat (position + length - 1)

def DecodeError.message (e : DecodeError) : Text :=
  let subject : Text :=
    if e.length = 1 then "byte 0x" ++ Text.hexadecimal 2 e.first.toNat else "bytes"
  ("'utf-8' codec can't decode " : Text) ++ subject ++ " in position " ++
    span e.position e.length ++ ": " ++ e.fault.message

def EncodeError.message (e : EncodeError) : Text :=
  let subject : Text :=
    if e.length = 1 then "character '\\u" ++ Text.hexadecimal 4 e.first.val ++ "'"
    else "characters"
  ("'utf-8' codec can't encode " : Text) ++ subject ++ " in position " ++
    span e.position e.length ++ ": surrogates not allowed"

/-- How many continuation bytes a start byte calls for, and the range of the first of them. The
ranges shut out overlong forms, surrogates and numbers past the last code point. -/
def lead (b : UInt8) : Option (Nat × UInt8 × UInt8) :=
  if b < 0xC2 then none
  else if b < 0xE0 then some (1, 0x80, 0xBF)
  else if b = 0xE0 then some (2, 0xA0, 0xBF)
  else if b = 0xED then some (2, 0x80, 0x9F)
  else if b < 0xF0 then some (2, 0x80, 0xBF)
  else if b = 0xF0 then some (3, 0x90, 0xBF)
  else if b < 0xF4 then some (3, 0x80, 0xBF)
  else if b = 0xF4 then some (3, 0x80, 0x8F)
  else none

/-- The payload of `count` continuation bytes, added to `value`; the first must lie between `low`
and `high`. A fault comes with the number of good continuation bytes before it. -/
def continuation (low high : UInt8) (value good : Nat) :
    Nat → Bytes → Except (Fault × Nat) Nat
  | 0, _ => .ok value
  | _ + 1, [] => .error (.unexpectedEnd, good)
  | count + 1, b :: rest =>
    if low ≤ b && b ≤ high then
      continuation 0x80 0xBF (value * 64 + (b.toNat - 0x80)) (good + 1) count rest
    else .error (.invalidContinuation, good)

def leadPayload (b : UInt8) (count : Nat) : Nat := b.toNat % 2 ^ (6 - count)

/-- Reads `bytes`, of which the first `skip` belong to the code point read before them;
`position` is the place of the first byte. -/
def decodeFrom (position : Nat) : Nat → Bytes → Except DecodeError Text
  | _, [] => .ok []
  | skip + 1, _ :: rest => decodeFrom (position + 1) skip rest
  | 0, b :: rest =>
    if b < 0x80 then do
      let text ← decodeFrom (position + 1) 0 rest
      .ok (Fin.ofNat 0x110000 b.toNat :: text)
    else
      match lead b with
      | none => .error ⟨.invalidStart, b, position, 1⟩
      | some (count, low, high) =>
        match continuation low high (leadPayload b count) 0 count rest with
        | .error (fault, good) => .error ⟨fault, b, position, good + 1⟩
        | .ok value => do
          let text ← decodeFrom (position + 1) count rest
          .ok (Fin.ofNat 0x110000 value :: text)

def decode (bytes : Bytes) : Except DecodeError Text := decodeFrom 0 0 bytes

def encodePoint (c : CodePoint) : Bytes :=
  let n := c.val
  let byte (lead bits : Nat) : UInt8 := UInt8.ofNat (lead + bits)
  if n < 0x80 then [byte 0 n]
  else if n < 0x800 then [byte 0xC0 (n / 64), byte 0x80 (n % 64)]
  else if n < 0x10000 then
    [byte 0xE0 (n / 4096), byte 0x80 (n / 64 % 64), byte 0x80 (n % 64)]
  else
    [byte 0xF0 (n / 262144), byte 0x80 (n / 4096 % 64), byte 0x80 (n / 64 % 64),
      byte 0x80 (n % 64)]

def encodeFrom (position : Nat) : Text → Except EncodeError Bytes
  | [] => .ok []
  | c :: rest =>
    if c.isSurrogate then
      .error ⟨c, position, 1 + (rest.takeWhile CodePoint.isSurrogate).length⟩
    else do
      let bytes ← encodeFrom (position + 1) rest
      .ok (encodePoint c ++ bytes)

def encode (t : Text) : Except EncodeError Bytes := encodeFrom 0 t

end FileWatch.Utf8
