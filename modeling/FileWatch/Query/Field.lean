import FileWatch.Value.Literal
/-!
The attributes of a file that a query may ask for, and sets of them as bit masks. A mask and a
list of names carry the same information.
-/

namespace FileWatch

inductive Field where
  | name
  | existence
  | cclock
  | oclock
  | ctime
  | ctimeMs
  | ctimeUs
  | ctimeNs
  | ctimeF
  | mtime
  | mtimeMs
  | mtimeUs
  | mtimeNs
  | mtimeF
  | size
  | uid
  | gid
  | ino
  | dev
  | nlink
  | new
  deriving DecidableEq, Repr

namespace Field

def word : Field → String
  | name => "name"
  | existence => "exists"
  | cclock => "cclock"
  | oclock => "oclock"
  | ctime => "ctime"
  | ctimeMs => "ctime_ms"
  | ctimeUs => "ctime_us"
  | ctimeNs => "ctime_ns"
  | ctimeF => "ctime_f"
  | mtime => "mtime"
  | mtimeMs => "mtime_ms"
  | mtimeUs => "mtime_us"
  | mtimeNs => "mtime_ns"
  | mtimeF => "mtime_f"
  | size => "size"
  | uid => "uid"
  | gid => "gid"
  | ino => "ino"
  | dev => "dev"
  | nlink => "nlink"
  | new => "new"

def all : List Field :=
  [name, existence, cclock, oclock, ctime, ctimeMs, ctimeUs, ctimeNs, ctimeF, mtime, mtimeMs,
    mtimeUs, mtimeNs, mtimeF, size, uid, gid, ino, dev, nlink, new]

def index (f : Field) : Nat := all.idxOf f

def bit (f : Field) : Nat := 2 ^ f.index

/-- Whether a mask, read in two's complement, selects an attribute. -/
def isIn (mask : Int) (f : Field) : Bool := mask / (f.bit : Int) % 2 = 1

/-- The attributes that a mask selects; bits beyond the last attribute count for nothing. -/
def selected (mask : Int) : List Field := all.filter (isIn mask)

def maskOf (fields : List Field) : Nat := fields.foldl (fun mask f => mask ||| f.bit) 0

def capitals (c : CodePoint) : Text :=
  if 0x61 ≤ c.val && c.val ≤ 0x7a then [Fin.ofNat 0x110000 (c.val - 0x20)]
  else if c = 'ı' then "I"
  else if c = 'ſ' then "S"
  else if c = 'ß' then "SS"
  else if c = 'ﬀ' then "FF"
  else if c = 'ﬁ' then "FI"
  else if c = 'ﬂ' then "FL"
  else if c = 'ﬃ' then "FFI"
  else if c = 'ﬄ' then "FFL"
  else if c = 'ﬅ' then "ST"
  else if c = 'ﬆ' then "ST"
  else [c]

/-- The attribute with a name, in any letter case and with white space around it. -/
def ofName? (t : Text) : Option Field :=
  let sought := (Text.strip t).flatMap capitals
  all.find? fun f => sought = (Text.ofString f.word).flatMap capitals

end Field

inductive FieldError where
  | unknown (literal : Text)
  | notInteger (kind : String)
  | malformedInteger (literal : Text)
  | longInteger (digits : Nat)
  | notANumber
  | infinite
  | misuse (e : Misuse)
  deriving DecidableEq, Repr

def FieldError.message : FieldError → Text
  | .unknown literal =>
    ("Unknown field: " : Text) ++ literal ++ ". Available fields: " ++
      Text.join ", " (Field.all.map fun f => f.word)
  | .notInteger kind =>
    ("int() argument must be a string, a bytes-like object or a real number, not '" : Text) ++
      kind ++ "'"
  | .malformedInteger literal => Numeral.malformed literal
  | .longInteger digits => Numeral.tooManyDigits digits
  | .notANumber => "cannot convert float NaN to integer"
  | .infinite => "cannot convert float infinity to integer"
  | .misuse e => e.message

namespace Field

def numeralError (literal : Text) : Numeral.ReadError → FieldError
  | .malformed => .malformedInteger literal
  | .tooLong digits => .longInteger digits

/-- The mask that a value gives: a number without its fraction, or a numeral. -/
def readMask : Value → Except FieldError Int
  | .int n => .ok n
  | .bool b => .ok (if b then 1 else 0)
  | .float x =>
    match x with
    | .nan => .error .notANumber
    | .infinite _ => .error .infinite
    | x => .ok (x.truncate?.getD 0)
  | .text t => (Numeral.read t).mapError (numeralError t.quoted)
  | .bytes b => (Numeral.readPlain (Numeral.plainBytes b)).mapError (numeralError (quotedBytes b))
  | v => .error (.notInteger v.fullKindName)

def namesOf (mask : Value) : Except FieldError (List Field) := do
  pure (selected (← readMask mask))

def readName : Value → Except FieldError Field
  | .text t =>
    match ofName? t with
    | some f => .ok f
    | none => .error (.unknown t.quoted)
  | .bytes b => .error (.unknown (quotedBytes b))
  | v => .error (.misuse (.noProperty v.fullKindName "strip"))

def parse (names : Value) : Except FieldError Nat := do
  let items ← names.members.mapError .misuse
  let fields ← items.mapM readName
  pure (maskOf fields)

/-- A mask as a number without sign; a negative one gets as many bits as it needs, and at least
those of all attributes. -/
def unsigned (mask : Int) : Nat :=
  let span : Int := 2 ^ all.length
  if 0 ≤ mask then mask.toNat
  else if -span ≤ mask then (span + mask).toNat
  else ((2 : Int) ^ (mask.natAbs.log2 + 1) + mask).toNat

/-- The name of a mask: those of its attributes, then a number for the bits that belong to none.
A mask without an attribute has no name. -/
def maskName (mask : Int) : Except Misuse Text :=
  let bits := unsigned mask
  let chosen := selected bits
  let surplus := bits - maskOf chosen
  if chosen.isEmpty then .error (.noProperty "NoneType" "lower")
  else
    let names := chosen.map fun f => Text.ofString f.word
    if surplus = 0 then .ok (Text.join "|" names)
    else
      match Numeral.write surplus with
      | .ok t => .ok (Text.join "|" (names ++ [t]))
      | .error e => .error (.tooLong e)

end Field

end FileWatch
