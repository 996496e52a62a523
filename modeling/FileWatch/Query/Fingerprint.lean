import FileWatch.Query.Construct
/-!
Identity of expressions. Equal expressions have equal fingerprints. The fingerprint holds the
payloads of a node without its kind, so some different expressions share one.
-/

namespace FileWatch

/-- A fingerprint is a sequence of payloads with brackets around groups. -/
inductive Mark where
  | opening
  | closing
  | word (t : Text)
  | number (n : Int)
  deriving DecidableEq, Repr

abbrev Fingerprint := List Mark

/-- Numbers are told apart up to a Mersenne prime, and minus one stands for minus two. -/
def numberMark (n : Int) : Mark :=
  let size : Int := n.natAbs % (2 ^ 61 - 1)
  let reduced := if n < 0 then -size else size
  .number (if reduced = -1 then -2 else reduced)

def group (parts : List Mark) : Fingerprint := .opening :: parts ++ [.closing]

def Origin.mark : Origin → Mark
  | .clock value => .word value.val
  | .timestamp second => numberMark second

namespace Expression

mutual

def fingerprint : Expression → Fingerprint
  | constant kind => group [.word kind.term.label]
  | union kind first rest =>
    group (.word kind.term.label :: group (fingerprint first ++ fingerprints rest))
  | negation clause => group (fingerprint clause)
  | since origin basis => group [origin.mark, .word basis.label]
  | suffix value => group [.word value.val]
  | pattern kind value scope =>
    group [.word kind.term.label, .word value.val, .word scope.label]
  | name kind first rest scope =>
    group (.word kind.term.label ::
      group ((first :: rest).map fun t => .word t.val) ++ [.word scope.label])
  | fileType letter => group [.word [letter]]
  termination_by structural e => e

def fingerprints : List Expression → Fingerprint
  | [] => []
  | e :: rest => fingerprint e ++ fingerprints rest
  termination_by structural es => es

end

end Expression

/-- An expression in the hands of a caller; `shared` when it is the one node that the library
keeps for a constant, which every call of the constant's constructor gives out. -/
structure Node where
  expression : Expression
  shared : Bool
  deriving DecidableEq, Repr

def Constructor.isShared : Constructor → Bool
  | .term .always | .term .never | .term .empty | .term .present => true
  | _ => false

def Node.same (a b : Node) : Bool := a.shared && b.shared && a.expression = b.expression

end FileWatch
