import FileWatch.Json.Decode
/-!
Writing values as JSON. Text outside ASCII stands for itself. Integers over the digit limit and
values of kinds that JSON lacks are refused, and so is a container that holds itself.
-/

namespace FileWatch.Json

inductive EncodeError where
  | notSerializable (kind : String)
  | badKey (kind : String)
  | circular
  | tooLong (e : Numeral.TooLong)
  deriving DecidableEq, Repr

def EncodeError.message : EncodeError → Text
  | .notSerializable kind =>
    ("Object of type " : Text) ++ kind ++ " is not JSON serializable"
  | .badKey kind =>
    ("keys must be str, int, float, bool or None, not " : Text) ++ kind
  | .circular => "Circular reference detected"
  | .tooLong e => e.message

def escaped (c : CodePoint) : Text :=
  if c = '"' then "\\\""
  else if c = '\\' then "\\\\"
  else if c = '\n' then "\\n"
  else if c = '\r' then "\\r"
  else if c = '\t' then "\\t"
  else if c = 8 then "\\b"
  else if c = 12 then "\\f"
  else if c.val < 0x20 then "\\u" ++ Text.hexadecimal 4 c.val
  else [c]

def writeString (t : Text) : Text :=
  ("\"" : Text) ++ t.flatMap escaped ++ ("\"" : Text)

def writeFloat (x : Binary64) : Text := x.writeNaming "Infinity" "NaN"

/-- How the parts of a document are set apart. With an indent, each item stands on a line of its
own, indented by so many spaces for each container around it. -/
structure Layout where
  afterItem : Text
  afterKey : Text
  indent : Option Nat

def Layout.compact : Layout := ⟨",", ":", none⟩

def Layout.spaced : Layout := ⟨", ", ": ", none⟩

def Layout.indented : Layout := ⟨",", ": ", some 2⟩

def Layout.lineBreak (l : Layout) (depth : Nat) : Text :=
  match l.indent with
  | none => []
  | some n => '\n' :: List.replicate (n * depth) ' '

def Layout.enclose (l : Layout) (depth : Nat) (opening closing : CodePoint)
    (items : List Text) : Text :=
  if items.isEmpty then [opening, closing]
  else
    let inner := l.lineBreak (depth + 1)
    opening :: inner ++ Text.join (l.afterItem ++ inner) items ++ l.lineBreak depth ++ [closing]

/-- The text of a dictionary key; keys that are not text become the text of their JSON form. -/
def keyText : Value → Except EncodeError Text
  | .text t => .ok t
  | .null => .ok "null"
  | .bool b => .ok (if b then "true" else "false")
  | .int n => (Numeral.write n).mapError .tooLong
  | .float x => .ok (writeFloat x)
  | v => .error (.badKey v.kindName)

mutual

/-- The JSON text of a value inside `depth` containers. -/
def encodeAt (l : Layout) (depth : Nat) : Value → Except EncodeError Text
  | .null => .ok "null"
  | .bool b => .ok (if b then "true" else "false")
  | .int n => (Numeral.write n).mapError .tooLong
  | .float x => .ok (writeFloat x)
  | .text t => .ok (writeString t)
  | .list items => do
    let items ← encodeItems l (depth + 1) items
    pure (l.enclose depth '[' ']' items)
  | .tuple items => do
    let items ← encodeItems l (depth + 1) items
    pure (l.enclose depth '[' ']' items)
  | .dict entries => do
    let entries ← encodeEntries l (depth + 1) entries
    pure (l.enclose depth '\x7b' '\x7d' entries)
  | .enclosing _ => .error .circular
  | .bytes b => .error (.notSerializable (Value.bytes b).kindName)
  | .set items => .error (.notSerializable (Value.set items).kindName)
  | .expression e => .error (.notSerializable e.kindName)
  | .term t => .error (.notSerializable (Value.term t).kindName)
  | .basis b => .error (.notSerializable (Value.basis b).kindName)
  | .scope s => .error (.notSerializable (Value.scope s).kindName)
  | .moment m => .error (.notSerializable (Value.moment m).kindName)
  | .civil t => .error (.notSerializable (Value.civil t).kindName)
  termination_by structural v => v

def encodeItems (l : Layout) (depth : Nat) : List Value → Except EncodeError (List Text)
  | [] => .ok []
  | v :: rest => do
    let t ← encodeAt l depth v
    let ts ← encodeItems l depth rest
    pure (t :: ts)
  termination_by structural vs => vs

def encodeEntries (l : Layout) (depth : Nat) :
    List (Value × Value) → Except EncodeError (List Text)
  | [] => .ok []
  | (k, v) :: rest => do
    let key ← keyText k
    let t ← encodeAt l depth v
    let ts ← encodeEntries l depth rest
    pure ((writeString key ++ l.afterKey ++ t) :: ts)
  termination_by structural es => es

end

def encode (l : Layout) (v : Value) : Except EncodeError Text := encodeAt l 0 v

end FileWatch.Json
