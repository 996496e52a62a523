import FileWatch.Number.Shortest
import FileWatch.Query.Expression
import FileWatch.Time.Moment
/-!
Values: whatever a caller may hand to the client and whatever a document may hold. Only some of
them can be sent; the others are met when an argument is of the wrong kind.
-/

namespace FileWatch

/-- A dictionary keeps its entries in the order of insertion. The value `enclosing n` stands for
the `n`-th list or dictionary around it, counted outwards from one, so that a container that holds
itself is a finite value. -/
inductive Value where
  | null
  | bool (b : Bool)
  | int (n : Int)
  | float (x : Binary64)
  | text (t : Text)
  | bytes (b : Bytes)
  | list (items : List Value)
  | tuple (items : List Value)
  | set (items : List Value)
  | dict (entries : List (Value × Value))
  | expression (e : Expression)
  | term (t : Term)
  | basis (b : ClockBasis)
  | scope (s : PathScope)
  | moment (m : Moment)
  | civil (t : CivilTime)
  | enclosing (n : Nat)
  deriving Repr

instance : Inhabited Value := ⟨.null⟩

instance : Coe Text Value := ⟨.text⟩

instance : Coe String Value := ⟨fun s => .text s⟩

def Expression.kindName : Expression → String
  | constant _ => "ConstantExpression"
  | union .. => "UnionExpression"
  | negation _ => "NotExpression"
  | since .. => "SinceExpression"
  | suffix _ => "SuffixExpression"
  | pattern .. => "MatchExpression"
  | name .. => "NameExpression"
  | fileType _ => "TypeExpression"

namespace Value

def kindName : Value → String
  | null => "NoneType"
  | bool _ => "bool"
  | int _ => "int"
  | float _ => "float"
  | text _ => "str"
  | bytes _ => "bytes"
  | list _ => "list"
  | tuple _ => "tuple"
  | set _ => "set"
  | dict _ => "dict"
  | expression e => e.kindName
  | term _ => "ExpressionType"
  | basis _ => "ClockSpec"
  | scope _ => "Basename"
  | moment _ | civil _ => "datetime"
  | enclosing _ => "list"

def fullKindName : Value → String
  | moment _ | civil _ => "datetime.datetime"
  | v => v.kindName

def isTruthy : Value → Bool
  | null => false
  | bool b => b
  | int n => n != 0
  | float (.finite _ mantissa _) => mantissa != 0
  | text t => !t.isEmpty
  | bytes b => !b.isEmpty
  | list items | tuple items | set items => !items.isEmpty
  | dict entries => !entries.isEmpty
  | _ => true

def integral? : Value → Option Int
  | bool b => some (if b then 1 else 0)
  | int n => some n
  | float x => x.toInt?
  | _ => none

mutual

/-- Whether two values are the same dictionary key. Numbers are compared by value whatever their
kind, and moments by the instant they denote. -/
def sameKey : Value → Value → Bool
  | tuple as, tuple bs => sameKeys as bs
  | null, null => true
  | text s, text t => s = t
  | bytes b, bytes c => b = c
  | expression a, expression b => a = b
  | term s, term t => s = t
  | basis a, basis b => a = b
  | scope a, scope b => a = b
  | moment a, moment b => a.unixMicroseconds = b.unixMicroseconds
  | civil a, civil b => a = b
  | float x, float y => x.sameValue y
  | a, b =>
    match integral? a, integral? b with
    | some m, some n => m = n
    | _, _ => false
  termination_by structural a => a

def sameKeys : List Value → List Value → Bool
  | [], [] => true
  | a :: as, b :: bs => sameKey a b && sameKeys as bs
  | _, _ => false
  termination_by structural as => as

end

mutual

/-- The part of a value that keeps it from being a dictionary key, if there is one. -/
def unhashablePart? : Value → Option Value
  | list items => some (list items)
  | set items => some (set items)
  | dict entries => some (dict entries)
  | enclosing n => some (enclosing n)
  | tuple items => unhashableAmong? items
  | _ => none
  termination_by structural v => v

def unhashableAmong? : List Value → Option Value
  | [] => none
  | v :: rest => unhashablePart? v <|> unhashableAmong? rest
  termination_by structural vs => vs

end

/-- `entries` with `value` under `key`; a key that is there keeps its place. -/
def insertEntry (key value : Value) : List (Value × Value) → List (Value × Value)
  | [] => [(key, value)]
  | (k, v) :: rest =>
    if sameKey k key then (k, value) :: rest else (k, v) :: insertEntry key value rest

def lookup? (key : Text) (entries : List (Value × Value)) : Option Value :=
  (entries.find? fun (k, _) => sameKey k (text key)).map Prod.snd

end Value

inductive Misuse where
  | unhashable (kind : String)
  | notIterable (kind : String)
  | noLength (kind : String)
  | notIndexable (kind : String)
  | missingKey (key : Int)
  | noProperty (kind property : String)
  | tooLong (e : Numeral.TooLong)
  deriving DecidableEq, Repr

def Misuse.message : Misuse → Text
  | .unhashable kind => ("unhashable type: '" : Text) ++ kind ++ "'"
  | .notIterable kind => ("'" : Text) ++ kind ++ "' object is not iterable"
  | .noLength kind => ("object of type '" : Text) ++ kind ++ "' has no len()"
  | .notIndexable kind => ("'" : Text) ++ kind ++ "' object is not subscriptable"
  | .missingKey key => Text.ofInt key
  | .noProperty kind property =>
    ("'" : Text) ++ kind ++ "' object has no attribute '" ++ property ++ "'"
  | .tooLong e => e.message

namespace Value

def requireHashable (v : Value) : Except Misuse Unit :=
  match v.unhashablePart? with
  | some part => .error (.unhashable part.kindName)
  | none => .ok ()

def dictOf (pairs : List (Value × Value)) : Except Misuse Value := do
  let entries ← pairs.foldlM (fun entries (k, v) => do
    requireHashable k
    pure (insertEntry k v entries)) []
  pure (dict entries)

def setOf (items : List Value) : Except Misuse Value := do
  items.forM requireHashable
  pure (set items)

def members : Value → Except Misuse (List Value)
  | text t => .ok (t.map fun c => text [c])
  | bytes b => .ok (b.map fun n => int n.toNat)
  | list items | tuple items | set items => .ok items
  | dict entries => .ok (entries.map Prod.fst)
  | v => .error (.notIterable v.fullKindName)

def length (v : Value) : Except Misuse Nat :=
  match v.members with
  | .ok items => .ok items.length
  | .error _ => .error (.noLength v.fullKindName)

/-- The member at place zero; a dictionary has one only under the key zero. -/
def firstMember (v : Value) : Except Misuse Value :=
  match v with
  | dict entries =>
    match entries.find? fun (k, _) => sameKey k (int 0) with
    | some (_, value) => .ok value
    | none => .error (.missingKey 0)
  | set _ => .error (.notIndexable v.kindName)
  | v =>
    match v.members with
    | .ok (item :: _) => .ok item
    | _ => .error (.notIndexable v.fullKindName)

end Value

end FileWatch
