import FileWatch.Value
/-!
Reading JSON documents. `document` reads one at the start of a text and gives back the rest of the
text; when there is none, the error holds what is left from the place of the fault on. Besides the
standard grammar, `NaN`, `Infinity` and `-Infinity` are numbers. A repeated key of an object keeps
its first place and its last value.
-/

namespace FileWatch.Json

inductive Fault where
  | value
  | propertyName
  | colon
  | comma
  | unterminatedString
  | controlCharacter
  | escape
  | unicodeEscape
  | byteOrderMark
  | extraData
  deriving DecidableEq, Repr

def Fault.message : Fault → String
  | .value => "Expecting value"
  | .propertyName => "Expecting property name enclosed in double quotes"
  | .colon => "Expecting ':' delimiter"
  | .comma => "Expecting ',' delimiter"
  | .unterminatedString => "Unterminated string starting at"
  | .controlCharacter => "Invalid control character at"
  | .escape => "Invalid \\escape"
  | .unicodeEscape => "Invalid \\uXXXX escape"
  | .byteOrderMark => "Unexpected UTF-8 BOM (decode using utf-8-sig)"
  | .extraData => "Extra data"

/-- A text is no document, or it holds an integer with too many digits. The rest of the text
begins at the place of the fault. -/
inductive DecodeError where
  | malformed (fault : Fault) (rest : Text)
  | longInteger (digits : Nat)
  deriving DecidableEq, Repr

def locate (fault : Fault) (whole rest : Text) : Text :=
  let before := whole.take (whole.length - rest.length)
  let line := List.count ('\n' : CodePoint) before + 1
  let column := (before.reverse.takeWhile fun c : CodePoint => c != '\n').length + 1
  Text.ofString fault.message ++ (": line " : Text) ++ Text.ofNat line ++ " column " ++
    Text.ofNat column ++ " (char " ++ Text.ofNat before.length ++ ")"

abbrev Reading (α : Type) := Except DecodeError (α × Text)

def isSpace (c : CodePoint) : Bool := c = ' ' || c = '\t' || c = '\n' || c = '\r'

def skipSpace (t : Text) : Text := t.dropWhile isSpace

def hexDigit? (c : CodePoint) : Option Nat :=
  if 0x30 ≤ c.val && c.val ≤ 0x39 then some (c.val - 0x30)
  else if 0x41 ≤ c.val && c.val ≤ 0x46 then some (c.val - 0x41 + 10)
  else if 0x61 ≤ c.val && c.val ≤ 0x66 then some (c.val - 0x61 + 10)
  else none

def hexQuad? (a b c d : CodePoint) : Option CodePoint := do
  let a ← hexDigit? a
  let b ← hexDigit? b
  let c ← hexDigit? c
  let d ← hexDigit? d
  some (Fin.ofNat 0x110000 (((a * 16 + b) * 16 + c) * 16 + d))

def joinSurrogates (high low : CodePoint) : CodePoint :=
  Fin.ofNat 0x110000 (0x10000 + (high.val - 0xD800) * 0x400 + (low.val - 0xDC00))

def simpleEscape? (c : CodePoint) : Option CodePoint :=
  if c = '"' then some '"'
  else if c = '\\' then some '\\'
  else if c = '/' then some '/'
  else if c = 'b' then some 8
  else if c = 'f' then some 12
  else if c = 'n' then some '\n'
  else if c = 'r' then some '\r'
  else if c = 't' then some '\t'
  else none

/-- The escape `uXXXX` at the start of `t`, with the number of code points it takes. Four
hexadecimal digits are an escape only when something follows them. The escape of a high surrogate
is joined with the escape of a low one behind it. -/
def unicodeEscape (t : Text) : Except DecodeError (CodePoint × Nat) :=
  match t with
  | _ :: a :: b :: c :: d :: next :: more =>
    match hexQuad? a b c d with
    | none => .error (.malformed .unicodeEscape t)
    | some point =>
      match more with
      | mark :: e :: f :: g :: h :: _ :: _ =>
        if point.isHighSurrogate && next = '\\' && mark = 'u' then
          match hexQuad? e f g h with
          | none => .error (.malformed .unicodeEscape more)
          | some second =>
            if second.isLowSurrogate then .ok (joinSurrogates point second, 11)
            else .ok (point, 5)
        else .ok (point, 5)
      | _ => .ok (point, 5)
  | _ => .error (.malformed .unicodeEscape t)

def escape (opening : Text) : Text → Except DecodeError (CodePoint × Nat)
  | [] => .error (.malformed .unterminatedString opening)
  | letter :: body =>
    if letter = 'u' then unicodeEscape (letter :: body)
    else
      match simpleEscape? letter with
      | some point => .ok (point, 1)
      | none => .error (.malformed .escape ('\\' :: letter :: body))

def push (c : CodePoint) : Reading Text → Reading Text
  | .ok (t, rest) => .ok (c :: t, rest)
  | .error e => .error e

/-- Reads a string from after its opening quote, which `opening` begins with. The first `skip`
code points belong to an escape that was read before. -/
def string (opening : Text) : (skip : Nat) → Text → Reading Text
  | _, [] => .error (.malformed .unterminatedString opening)
  | skip + 1, _ :: rest => string opening skip rest
  | 0, c :: rest =>
    if c = '"' then .ok ([], rest)
    else if c = '\\' then
      match escape opening rest with
      | .ok (point, width) => push point (string opening width rest)
      | .error e => .error e
    else if c.val < 0x20 then .error (.malformed .controlCharacter (c :: rest))
    else push c (string opening 0 rest)

def spanDigits (t : Text) : Text × Text :=
  (t.takeWhile CodePoint.isAsciiDigit, t.dropWhile CodePoint.isAsciiDigit)

def wholePart? (t : Text) : Option (Text × Text) :=
  match t with
  | [] => none
  | c :: rest =>
    if c = '0' then some ([c], rest)
    else if c.isAsciiDigit then some (spanDigits t)
    else none

def fractionPart (t : Text) : Text × Text :=
  match t with
  | c :: rest => if c = '.' && !(spanDigits rest).1.isEmpty then spanDigits rest else ([], t)
  | [] => ([], [])

def exponentPart (t : Text) : Option Int × Text :=
  match t with
  | c :: rest =>
    if Binary64.isExponentMark c then
      let (negative, body) := Numeral.takeSign rest
      let (digits, after) := spanDigits body
      if digits.isEmpty then (none, t)
      else
        let size : Int := Numeral.digitsValue digits
        (some (if negative then -size else size), after)
    else (none, t)
  | [] => (none, [])

/-- The longest number at the start of `t` without a sign. A part that is begun and not finished
belongs to the rest. -/
def unsignedNumber (negative : Bool) (t : Text) : Option (Reading Value) := do
  let (whole, rest) ← wholePart? t
  let (places, rest) := fractionPart rest
  let (exponent?, rest) := exponentPart rest
  if places.isEmpty && exponent?.isNone then
    if Numeral.digitLimit < whole.length then some (.error (.longInteger whole.length))
    else
      let size : Int := Numeral.digitsValue whole
      some (.ok (.int (if negative then -size else size), rest))
  else
    let power := exponent?.getD 0 - places.length
    some (.ok (.float (Binary64.ofDecimal negative (Numeral.digitsValue (whole ++ places)) power),
      rest))

def afterWord? (word : String) (t : Text) : Option Text :=
  if (Text.ofString word).isPrefixOf t then some (t.drop (Text.ofString word).length) else none

def words : List (String × Value) :=
  [("null", .null), ("true", .bool true), ("false", .bool false), ("NaN", .float .nan),
    ("Infinity", .float (.infinite false)), ("-Infinity", .float (.infinite true))]

def scalar (t : Text) : Reading Value :=
  match words.findSome? fun (word, value) => (afterWord? word t).map fun rest => (value, rest) with
  | some reading => .ok reading
  | none =>
    let (negative, body) :=
      match t with
      | c :: rest => if c = '-' then (true, rest) else (false, t)
      | [] => (false, [])
    (unsignedNumber negative body).getD (.error (.malformed .value t))

def collect (members : List (Text × Value)) : List (Value × Value) :=
  members.foldl (fun entries (key, value) => Value.insertEntry (.text key) value entries) []

mutual

/-- Reads the value at the start of a text. The first argument bounds how many values, items and
members may be begun inside each other and after each other. -/
def valueWithin : Nat → Text → Reading Value
  | 0, t => .error (.malformed .value t)
  | _ + 1, [] => .error (.malformed .value [])
  | n + 1, c :: rest =>
    if c = '"' then
      match string (c :: rest) 0 rest with
      | .ok (t, rest) => .ok (.text t, rest)
      | .error e => .error e
    else if c = '[' then
      match skipSpace rest with
      | [] => .error (.malformed .value [])
      | d :: more =>
        if d = ']' then .ok (.list [], more)
        else
          match itemsWithin n (d :: more) with
          | .ok (items, rest) => .ok (.list items, rest)
          | .error e => .error e
    else if c = '\x7b' then
      match skipSpace rest with
      | [] => .error (.malformed .propertyName [])
      | d :: more =>
        if d = '\x7d' then .ok (.dict [], more)
        else
          match membersWithin n (d :: more) with
          | .ok (members, rest) => .ok (.dict (collect members), rest)
          | .error e => .error e
    else scalar (c :: rest)
  termination_by structural n => n

def itemsWithin : Nat → Text → Reading (List Value)
  | 0, t => .error (.malformed .value t)
  | n + 1, t =>
    match valueWithin n t with
    | .error e => .error e
    | .ok (value, rest) =>
      match skipSpace rest with
      | [] => .error (.malformed .comma [])
      | c :: more =>
        if c = ']' then .ok ([value], more)
        else if c = ',' then
          match itemsWithin n (skipSpace more) with
          | .ok (values, rest) => .ok (value :: values, rest)
          | .error e => .error e
        else .error (.malformed .comma (c :: more))
  termination_by structural n => n

def membersWithin : Nat → Text → Reading (List (Text × Value))
  | 0, t => .error (.malformed .propertyName t)
  | _ + 1, [] => .error (.malformed .propertyName [])
  | n + 1, q :: body =>
    if q = '"' then
      match string (q :: body) 0 body with
      | .error e => .error e
      | .ok (key, rest) =>
        match skipSpace rest with
        | [] => .error (.malformed .colon [])
        | c :: more =>
          if c = ':' then
            match valueWithin n (skipSpace more) with
            | .error e => .error e
            | .ok (value, rest) =>
              match skipSpace rest with
              | [] => .error (.malformed .comma [])
              | c :: more =>
                if c = '\x7d' then .ok ([(key, value)], more)
                else if c = ',' then
                  match membersWithin n (skipSpace more) with
                  | .ok (members, rest) => .ok ((key, value) :: members, rest)
                  | .error e => .error e
                else .error (.malformed .comma (c :: more))
          else .error (.malformed .colon (c :: more))
    else .error (.malformed .propertyName (q :: body))
  termination_by structural n => n

end

/-- Reads the document at the start of a text. Of two parts that are begun one inside the other the
inner one has a code point less to read, or is begun by an item, so the bound is never reached. -/
def document (t : Text) : Reading Value := valueWithin (2 * t.length + 1) t

end FileWatch.Json
