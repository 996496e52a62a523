import FileWatch.Value
/-!
Parts of values that hold themselves. A reference to an enclosing container means nothing once the
part in which it stands is taken out of that container; a part of its own has the container's
contents in the place of each such reference. In a value without references every part is its own
already.
-/

namespace FileWatch.Value

mutual

/-- A part with its references to the container around it replaced. They stand `depth` containers
deep in the part, and `around depth` is the container as it is seen from there. -/
def rebind (around : Nat → Value) (depth : Nat) : Value → Value
  | enclosing n => if n = depth + 1 then around depth else enclosing n
  | list items => list (rebindItems around (depth + 1) items)
  | tuple items => tuple (rebindItems around depth items)
  | dict entries => dict (rebindEntries around (depth + 1) entries)
  | v => v
  termination_by structural v => v

def rebindItems (around : Nat → Value) (depth : Nat) : List Value → List Value
  | [] => []
  | v :: rest => rebind around depth v :: rebindItems around depth rest
  termination_by structural vs => vs

def rebindEntries (around : Nat → Value) (depth : Nat) :
    List (Value × Value) → List (Value × Value)
  | [] => []
  | (k, v) :: rest => (k, rebind around depth v) :: rebindEntries around depth rest
  termination_by structural es => es

end

/-- A part of `whole` as a value of its own, where `holding v` is the whole with `v` for the
part. -/
def ownPart (whole : Value) (holding : Value → Value) : Value → Value
  | enclosing _ => whole
  | v => rebind (fun depth => holding (enclosing (depth + 1))) 0 v

def ownItems (items : List Value) : List Value :=
  items.mapIdx fun i v => ownPart (list items) (fun part => list (items.set i part)) v

def ownEntries (entries : List (Value × Value)) : List (Value × Value) :=
  entries.mapIdx fun i (k, v) =>
    (k, ownPart (dict entries) (fun part => dict (entries.set i (k, part))) v)

end FileWatch.Value
