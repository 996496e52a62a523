import FileWatch.Query.Construct
/-!
The wire form of expressions: arrays that begin with the word of a term. Every slot that says no
more than the standard is left out.
-/

namespace FileWatch

def Origin.wire : Origin → Value
  | .clock value => .text value.val
  | .timestamp second => .int second

/-- The value for an optional slot: absent when there is no word. -/
def slot (word? : Option String) : List Value := (word?.map fun w => .text w).toList

namespace Expression

mutual

def wire : Expression → Value
  | constant kind => .list [.text kind.term.word]
  | union kind first rest => .list (.text kind.term.word :: wire first :: wireAll rest)
  | negation clause => .list [.text Term.negation.word, wire clause]
  | since origin basis => .list (.text Term.since.word :: origin.wire :: slot basis.word?)
  | suffix value => .list [.text Term.suffix.word, .text value.val]
  | pattern kind value scope =>
    .list (.text kind.term.word :: .text value.val :: slot scope.word?)
  | name kind first rest scope =>
    -- a single candidate stands for itself, several in an array
    let names :=
      if rest.isEmpty then .text first.val
      else .list (.text first.val :: rest.map fun t => .text t.val)
    .list (.text kind.term.word :: names :: slot scope.word?)
  | fileType letter => .list [.text Term.fileType.word, .text [letter]]
  termination_by structural e => e

def wireAll : List Expression → List Value
  | [] => []
  | e :: rest => wire e :: wireAll rest
  termination_by structural es => es

end

def wireOf (v : Value) : Except ArgumentError Value := do
  pure (← ofValue v).wire

end Expression

end FileWatch
