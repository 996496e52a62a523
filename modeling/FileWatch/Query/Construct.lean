import FileWatch.Value.Literal
/-!
Building expressions from values that may be of any kind. A constructor is called with positional
arguments; it checks them in order and names the first that does not fit.
-/

namespace FileWatch

inductive TermClass where
  | constant
  | union
  | pattern
  | name
  deriving DecidableEq, Repr

def TermClass.phrase : TermClass → String
  | .constant => "a constant term"
  | .union => "allof or anyof"
  | .pattern => "a match term"
  | .name => "name or iname"

inductive ArgumentError where
  | notText (what : String) (kind : String)
  | emptyText (what : String)
  | notExpression (kind : String)
  | wrongTerm (given : Text) (expected : TermClass)
  | noClause (kind : Union)
  | noName (kind : NameKind)
  | namesAsText
  | badOrigin (kind : String)
  | badTime (kind : String)
  | badBasis
  | badScope
  | badLetter (literal : Text)
  | localTime (e : LocalTimeError)
  | missing (callee : String) (parameters : List String)
  | surplus (callee : String) (least most given : Nat)
  | misuse (e : Misuse)
  deriving DecidableEq, Repr

def enumerate (names : List String) : Text :=
  let quote (name : String) : Text := ("'" : Text) ++ name ++ "'"
  match names with
  | [] => []
  | [a] => quote a
  | [a, b] => quote a ++ (" and " : Text) ++ quote b
  | _ =>
    Text.join ", " (names.dropLast.map quote) ++ (", and " : Text) ++
      quote (names.getLast?.getD "")

def ArgumentError.message : ArgumentError → Text
  | .notText what kind => Text.ofString what ++ (" must be a string, got " : Text) ++ kind
  | .emptyText what => Text.ofString what ++ (" must not be empty" : Text)
  | .notExpression kind => ("expected an Expression, got " : Text) ++ kind
  | .wrongTerm given expected => given ++ (" is not " : Text) ++ expected.phrase
  | .noClause kind => Text.ofString kind.term.word ++ (" requires at least one clause" : Text)
  | .noName kind => Text.ofString kind.term.word ++ (" requires at least one name" : Text)
  | .namesAsText => "names must be a sequence of strings"
  | .badOrigin kind =>
    ("since value must be a clock string or an int timestamp, got " : Text) ++ kind
  | .badTime kind => ("since time must be an int or datetime, got " : Text) ++ kind
  | .badBasis => "clockspec must be a ClockSpec"
  | .badScope => "basename must be a Basename"
  | .badLetter literal => ("type expects a single character, got " : Text) ++ literal
  | .localTime e => e.message
  | .missing callee parameters =>
    Text.ofString callee ++ ("() missing " : Text) ++ Text.ofNat parameters.length ++
      " required positional argument" ++ (if parameters.length = 1 then ": " else "s: ") ++
      enumerate parameters
  | .surplus callee least most given =>
    let range : Text :=
      if least = most then Text.ofNat most
      else ("from " : Text) ++ Text.ofNat least ++ " to " ++ Text.ofNat most
    Text.ofString callee ++ ("() takes " : Text) ++ range ++
      (if most = 1 then " positional argument but " else " positional arguments but ") ++
      Text.ofNat given ++ (if given = 1 then " was given" else " were given")
  | .misuse e => e.message

/-- The kinds of nodes, each of which can be built directly. -/
inductive NodeKind where
  | constant
  | union
  | negation
  | since
  | suffix
  | pattern
  | name
  | fileType
  deriving DecidableEq, Repr

def NodeKind.kindName : NodeKind → String
  | .constant => "ConstantExpression"
  | .union => "UnionExpression"
  | .negation => "NotExpression"
  | .since => "SinceExpression"
  | .suffix => "SuffixExpression"
  | .pattern => "MatchExpression"
  | .name => "NameExpression"
  | .fileType => "TypeExpression"

def NodeKind.all : List NodeKind :=
  [.constant, .union, .negation, .since, .suffix, .pattern, .name, .fileType]

/-- The ways to build an expression: one for each term, one for a since term from a time, and one
for each kind of node. -/
inductive Constructor where
  | term (t : Term)
  | sinceTime
  | node (kind : NodeKind)
  deriving DecidableEq, Repr

namespace Constructor

def name : Constructor → String
  | term t => t.word
  | sinceTime => "since_time"
  | node kind => kind.kindName

def all : List Constructor :=
  Term.all.map term ++ [sinceTime] ++ NodeKind.all.map node

def ofName? (n : String) : Option Constructor := all.find? fun c => c.name = n

def callee : Constructor → String
  | node kind => kind.kindName ++ ".__init__"
  | c => c.name ++ "_expression"

/-- The parameters that must be given and those that may be left out. -/
def parameters : Constructor → List String × List String
  | term .allOf | term .anyOf => ([], [])
  | term .always | term .never | term .empty | term .present => ([], [])
  | term .negation => (["clause"], [])
  | term .since => (["clock"], ["clockspec"])
  | sinceTime => (["time"], ["clockspec"])
  | term .suffix => (["suffix"], [])
  | term .glob | term .globCaseless | term .regex | term .regexCaseless =>
    (["pattern"], ["basename"])
  | term .name | term .nameCaseless => (["names"], ["basename"])
  | term .fileType => (["type_char"], [])
  | node .constant => (["type"], [])
  | node .union => (["type", "clauses"], [])
  | node .negation => (["clause"], [])
  | node .since => (["value"], ["clockspec"])
  | node .suffix => (["suffix"], [])
  | node .pattern => (["type", "pattern"], ["basename"])
  | node .name => (["type", "names"], ["basename"])
  | node .fileType => (["type_char"], [])

/-- The error for a wrong number of arguments. A node that is built counts as one of them. -/
def arityError (c : Constructor) (given : Nat) : ArgumentError :=
  let (required, optional) := c.parameters
  let own := match c with
    | node _ => 1
    | _ => 0
  if required.length + optional.length < given then
    .surplus c.callee (required.length + own) (required.length + optional.length + own)
      (given + own)
  else .missing c.callee (required.drop given)

end Constructor

namespace Expression

def requireText (what : String) : Value → Except ArgumentError NonemptyText
  | .text t => if h : t ≠ [] then .ok ⟨t, h⟩ else .error (.emptyText what)
  | v => .error (.notText what v.kindName)

def ofValue : Value → Except ArgumentError Expression
  | .expression e => .ok e
  | v => .error (.notExpression v.kindName)

def requireBasis : Option Value → Except ArgumentError ClockBasis
  | none => .ok .standard
  | some (.basis b) => .ok b
  | some _ => .error .badBasis

def requireScope : Option Value → Except ArgumentError PathScope
  | none => .ok .standard
  | some (.scope s) => .ok s
  | some _ => .error .badScope

def members (v : Value) : Except ArgumentError (List Value) := v.members.mapError .misuse

def valueProperty : Value → Except Misuse Text
  | .term t => .ok t.word
  | .basis b => .ok (b.word?.getD "None")
  | .scope s => .ok (s.word?.getD "None")
  | .expression (since (.clock c) _) => .ok c.val
  | .expression (since (.timestamp n) _) => (Numeral.write n).mapError .tooLong
  | v => .error (.noProperty v.fullKindName "value")

/-- The term of a node, chosen among those that `select?` admits. A value that is looked up among
the terms has to be hashable; a set stands in for its own contents and is. -/
def requireTerm {α : Type} (select? : Term → Option α) (expected : TermClass) (v : Value) :
    Except ArgumentError α := do
  match v with
  | .set _ => pure ()
  | _ => (v.requireHashable).mapError .misuse
  let chosen := match v with
    | .term t => select? t
    | _ => none
  match chosen with
  | some a => pure a
  | none => throw (.wrongTerm (← (valueProperty v).mapError .misuse) expected)

def constant? : Term → Option Constant
  | .always => some .always
  | .never => some .never
  | .empty => some .empty
  | .present => some .present
  | _ => none

def union? : Term → Option Union
  | .allOf => some .allOf
  | .anyOf => some .anyOf
  | _ => none

def patternKind? : Term → Option PatternKind
  | .glob => some .glob
  | .globCaseless => some .globCaseless
  | .regex => some .regex
  | .regexCaseless => some .regexCaseless
  | _ => none

def nameKind? : Term → Option NameKind
  | .name => some .exact
  | .nameCaseless => some .caseless
  | _ => none

def buildUnion (kind : Union) (clauses : List Value) : Except ArgumentError Expression :=
  match clauses with
  | [] => .error (.noClause kind)
  | first :: rest => do
    let first ← ofValue first
    let rest ← rest.mapM ofValue
    pure (union kind first rest)

def buildNegation (clause : Value) : Except ArgumentError Expression := do
  pure (negation (← ofValue clause))

/-- A since term from a clock or a timestamp; a truth value is not a timestamp. -/
def buildSince (origin : Value) (basis : Option Value) : Except ArgumentError Expression := do
  let origin ← match origin with
    | .int second => pure (.timestamp second)
    | .text t => Origin.clock <$> requireText "since clock" (.text t)
    | v => throw (.badOrigin v.kindName)
  pure (since origin (← requireBasis basis))

def buildSinceClock (clock : Value) (basis : Option Value) : Except ArgumentError Expression := do
  let clock ← requireText "since clock" clock
  pure (since (.clock clock) (← requireBasis basis))

def buildSinceTime (here : LocalTime) (time : Value) (basis : Option Value) :
    Except ArgumentError Expression := do
  let second ← match time with
    | .moment m => pure m.unixSecond
    | .civil t => (here t).mapError .localTime
    | .int n => pure n
    | v => throw (.badTime v.kindName)
  pure (since (.timestamp second) (← requireBasis basis))

def buildSuffix (value : Value) : Except ArgumentError Expression := do
  pure (suffix (← requireText "suffix" value))

def buildPattern (kind : PatternKind) (value : Value) (scope : Option Value) :
    Except ArgumentError Expression := do
  let value ← requireText (kind.term.word ++ " pattern") value
  pure (pattern kind value (← requireScope scope))

def buildName (kind : NameKind) (names : List Value) (scope : Option Value) :
    Except ArgumentError Expression :=
  let candidate := requireText (kind.term.word ++ " candidate")
  match names with
  | [] => .error (.noName kind)
  | first :: rest => do
    let first ← candidate first
    let rest ← rest.mapM candidate
    pure (name kind first rest (← requireScope scope))

def buildFileType (letter : Value) : Except ArgumentError Expression :=
  match letter with
  | .text [c] => .ok (fileType c)
  | v =>
    match v.literal with
    | .ok literal => .error (.badLetter literal)
    | .error e => .error (.misuse (.tooLong e))

/-- The candidates of a name term: a text on its own is the only one. -/
def candidates : Value → Except ArgumentError (List Value)
  | .text t => .ok [.text t]
  | v => members v

end Expression

open Expression in
/-- Calls a constructor with positional arguments, where `here` is the platform's local time. -/
def Constructor.call (here : LocalTime) (c : Constructor) (arguments : List Value) :
    Except ArgumentError Expression :=
  match c, arguments with
  | .term .allOf, clauses => buildUnion .allOf clauses
  | .term .anyOf, clauses => buildUnion .anyOf clauses
  | .term .negation, [clause] => buildNegation clause
  | .term .always, [] => .ok (constant .always)
  | .term .never, [] => .ok (constant .never)
  | .term .empty, [] => .ok (constant .empty)
  | .term .present, [] => .ok (constant .present)
  | .term .since, [clock] => buildSinceClock clock none
  | .term .since, [clock, basis] => buildSinceClock clock basis
  | .sinceTime, [time] => buildSinceTime here time none
  | .sinceTime, [time, basis] => buildSinceTime here time basis
  | .term .suffix, [value] => buildSuffix value
  | .term .glob, [value] => buildPattern .glob value none
  | .term .glob, [value, scope] => buildPattern .glob value scope
  | .term .globCaseless, [value] => buildPattern .globCaseless value none
  | .term .globCaseless, [value, scope] => buildPattern .globCaseless value scope
  | .term .regex, [value] => buildPattern .regex value none
  | .term .regex, [value, scope] => buildPattern .regex value scope
  | .term .regexCaseless, [value] => buildPattern .regexCaseless value none
  | .term .regexCaseless, [value, scope] => buildPattern .regexCaseless value scope
  | .term .name, [names] => do buildName .exact (← candidates names) none
  | .term .name, [names, scope] => do buildName .exact (← candidates names) scope
  | .term .nameCaseless, [names] => do buildName .caseless (← candidates names) none
  | .term .nameCaseless, [names, scope] => do buildName .caseless (← candidates names) scope
  | .term .fileType, [letter] => buildFileType letter
  | .node .constant, [given] => constant <$> requireTerm constant? .constant given
  | .node .union, [given, clauses] => do
    let kind ← requireTerm union? .union given
    buildUnion kind (← members clauses)
  | .node .negation, [clause] => buildNegation clause
  | .node .since, [origin] => buildSince origin none
  | .node .since, [origin, basis] => buildSince origin basis
  | .node .suffix, [value] => buildSuffix value
  | .node .pattern, [given, value] => do
    buildPattern (← requireTerm patternKind? .pattern given) value none
  | .node .pattern, [given, value, scope] => do
    buildPattern (← requireTerm patternKind? .pattern given) value scope
  | .node .name, [given, names] => buildNameNode given names none
  | .node .name, [given, names, scope] => buildNameNode given names scope
  | .node .fileType, [letter] => buildFileType letter
  | c, arguments => .error (c.arityError arguments.length)
where
  /-- A name node takes its candidates as a sequence and never as a text. -/
  buildNameNode (given names : Value) (scope : Option Value) : Except ArgumentError Expression := do
    let kind ← requireTerm nameKind? .name given
    match names with
    | .text _ => throw .namesAsText
    | _ => buildName kind (← members names) scope

end FileWatch
