import FileWatch.Text.Quoted
import FileWatch.Value
/-!
Values inside messages. The literal of a value shows its kind and contents; the display of a text
is the text itself. Integers over the digit limit have neither.
-/

namespace FileWatch

def choiceLiteral (kind label : String) (word? : Option String) : Text :=
  let word : Text :=
    match word? with
    | some w => Text.quoted w
    | none => "None"
  ("<" : Text) ++ kind ++ "." ++ label ++ ": " ++ word ++ ">"

def Term.literal (t : Term) : Text := choiceLiteral "ExpressionType" t.label (some t.word)

def ClockBasis.literal (b : ClockBasis) : Text := choiceLiteral "ClockSpec" b.label b.word?

def PathScope.literal (s : PathScope) : Text := choiceLiteral "Basename" s.label s.word?

/-- Items between parentheses, with a comma after a single one. -/
def tupleLiteral (items : List Text) : Text :=
  match items with
  | [t] => ("(" : Text) ++ t ++ ",)"
  | _ => ("(" : Text) ++ Text.join ", " items ++ ")"

def nodeLiteral (kind : String) (parts : List (String × Text)) : Text :=
  let part := fun (name, value) => Text.ofString name ++ ("=" : Text) ++ value
  Text.ofString kind ++ ("(" : Text) ++ Text.join ", " (parts.map part) ++ ")"

def Origin.literal : Origin → Except Numeral.TooLong Text
  | .clock value => .ok (Text.quoted value.val)
  | .timestamp second => Numeral.write second

namespace Expression

mutual

def literal : Expression → Except Numeral.TooLong Text
  | e@(constant kind) => .ok (nodeLiteral e.kindName [("type", kind.term.literal)])
  | union kind first rest => do
    let first ← literal first
    let rest ← literals rest
    pure (nodeLiteral "UnionExpression"
      [("type", kind.term.literal), ("clauses", tupleLiteral (first :: rest))])
  | negation clause => do
    let clause ← literal clause
    pure (nodeLiteral "NotExpression" [("clause", clause)])
  | e@(since origin basis) => do
    let origin ← origin.literal
    pure (nodeLiteral e.kindName [("value", origin), ("clockspec", basis.literal)])
  | e@(suffix value) => .ok (nodeLiteral e.kindName [("suffix", Text.quoted value.val)])
  | e@(pattern kind value scope) =>
    .ok (nodeLiteral e.kindName [("type", kind.term.literal), ("pattern", Text.quoted value.val),
      ("basename", scope.literal)])
  | e@(name kind first rest scope) =>
    .ok (nodeLiteral e.kindName [("type", kind.term.literal),
      ("names", tupleLiteral ((first :: rest).map fun t => Text.quoted t.val)),
      ("basename", scope.literal)])
  | e@(fileType letter) => .ok (nodeLiteral e.kindName [("type_char", Text.quoted [letter])])
  termination_by structural e => e

def literals : List Expression → Except Numeral.TooLong (List Text)
  | [] => .ok []
  | e :: rest => do
    let t ← literal e
    let ts ← literals rest
    pure (t :: ts)
  termination_by structural es => es

end

end Expression

namespace Value

mutual

/-- The literal of a value, where `inDict` says of each list or dictionary around it, innermost
first, whether it is a dictionary. A reference to one of them is shown cut short. -/
def literalWithin (inDict : List Bool) : Value → Except Numeral.TooLong Text
  | null => .ok "None"
  | bool b => .ok (if b then "True" else "False")
  | int n => Numeral.write n
  | float x => .ok x.write
  | text t => .ok t.quoted
  | bytes b => .ok (quotedBytes b)
  | list items => do
    let items ← literalsWithin (false :: inDict) items
    pure (("[" : Text) ++ Text.join ", " items ++ "]")
  | tuple items => do
    let items ← literalsWithin inDict items
    pure (tupleLiteral items)
  | set items => do
    let items ← literalsWithin inDict items
    pure (if items.isEmpty then "set()" else ("\x7b" : Text) ++ Text.join ", " items ++ "\x7d")
  | dict entries => do
    let entries ← entryLiterals (true :: inDict) entries
    pure (("\x7b" : Text) ++ Text.join ", " entries ++ "\x7d")
  | expression e => e.literal
  | term t => .ok t.literal
  | basis b => .ok b.literal
  | scope s => .ok s.literal
  | moment m => .ok m.literal
  | civil t => .ok t.literal
  | enclosing n => .ok (if inDict.getD (n - 1) false then "\x7b...\x7d" else "[...]")
  termination_by structural v => v

def literalsWithin (inDict : List Bool) : List Value → Except Numeral.TooLong (List Text)
  | [] => .ok []
  | v :: rest => do
    let t ← literalWithin inDict v
    let ts ← literalsWithin inDict rest
    pure (t :: ts)
  termination_by structural vs => vs

def entryLiterals (inDict : List Bool) :
    List (Value × Value) → Except Numeral.TooLong (List Text)
  | [] => .ok []
  | (k, v) :: rest => do
    let key ← literalWithin inDict k
    let value ← literalWithin inDict v
    let ts ← entryLiterals inDict rest
    pure ((key ++ (": " : Text) ++ value) :: ts)
  termination_by structural es => es

end

def literal (v : Value) : Except Numeral.TooLong Text := literalWithin [] v

def display : Value → Except Numeral.TooLong Text
  | text t => .ok t
  | term t => .ok (("ExpressionType." : Text) ++ t.label)
  | basis b => .ok (("ClockSpec." : Text) ++ b.label)
  | scope s => .ok (("Basename." : Text) ++ s.label)
  | moment m => .ok m.display
  | civil t => .ok t.display
  | v => v.literal

end Value

end FileWatch
