import FileWatch.Text
/-!
Query expressions: trees of terms that select files. What every expression satisfies is in its
type: a union has a clause, a name term has a candidate, and no pattern, suffix, clock or candidate
is empty.
-/

namespace FileWatch

inductive Term where
  | allOf
  | anyOf
  | negation
  | always
  | never
  | since
  | suffix
  | glob
  | globCaseless
  | regex
  | regexCaseless
  | name
  | nameCaseless
  | fileType
  | empty
  | present
  deriving DecidableEq, Repr

def Term.word : Term → String
  | .allOf => "allof"
  | .anyOf => "anyof"
  | .negation => "not"
  | .always => "true"
  | .never => "false"
  | .since => "since"
  | .suffix => "suffix"
  | .glob => "match"
  | .globCaseless => "imatch"
  | .regex => "pcre"
  | .regexCaseless => "ipcre"
  | .name => "name"
  | .nameCaseless => "iname"
  | .fileType => "type"
  | .empty => "empty"
  | .present => "exists"

def Term.label : Term → String
  | .allOf => "ALLOF"
  | .anyOf => "ANYOF"
  | .negation => "NOT"
  | .always => "TRUE"
  | .never => "FALSE"
  | .since => "SINCE"
  | .suffix => "SUFFIX"
  | .glob => "MATCH"
  | .globCaseless => "IMATCH"
  | .regex => "PCRE"
  | .regexCaseless => "IPCRE"
  | .name => "NAME"
  | .nameCaseless => "INAME"
  | .fileType => "TYPE"
  | .empty => "EMPTY"
  | .present => "EXISTS"

def Term.all : List Term :=
  [.allOf, .anyOf, .negation, .always, .never, .since, .suffix, .glob, .globCaseless, .regex,
    .regexCaseless, .name, .nameCaseless, .fileType, .empty, .present]

inductive Constant where
  | always
  | never
  | empty
  | present
  deriving DecidableEq, Repr

inductive Union where
  | allOf
  | anyOf
  deriving DecidableEq, Repr

inductive PatternKind where
  | glob
  | globCaseless
  | regex
  | regexCaseless
  deriving DecidableEq, Repr

inductive NameKind where
  | exact
  | caseless
  deriving DecidableEq, Repr

def Constant.term : Constant → Term
  | .always => .always
  | .never => .never
  | .empty => .empty
  | .present => .present

def Union.term : Union → Term
  | .allOf => .allOf
  | .anyOf => .anyOf

def PatternKind.term : PatternKind → Term
  | .glob => .glob
  | .globCaseless => .globCaseless
  | .regex => .regex
  | .regexCaseless => .regexCaseless

def NameKind.term : NameKind → Term
  | .exact => .name
  | .caseless => .nameCaseless

/-- What a since term compares with its origin; `standard` leaves the choice to the daemon. -/
inductive ClockBasis where
  | standard
  | observed
  | modified
  | changed
  deriving DecidableEq, Repr

/-- What a name or pattern is compared with; `standard` leaves the choice to the daemon. -/
inductive PathScope where
  | standard
  | baseName
  | wholeName
  deriving DecidableEq, Repr

def ClockBasis.word? : ClockBasis → Option String
  | .standard => none
  | .observed => some "oclock"
  | .modified => some "mtime"
  | .changed => some "ctime"

def ClockBasis.label : ClockBasis → String
  | .standard => "NONE"
  | .observed => "OCLOCK"
  | .modified => "MTIME"
  | .changed => "CTIME"

def PathScope.word? : PathScope → Option String
  | .standard => none
  | .baseName => some "basename"
  | .wholeName => some "wholename"

def PathScope.label : PathScope → String
  | .standard => "NONE"
  | .baseName => "BASENAME"
  | .wholeName => "WHOLENAME"

def ClockBasis.all : List ClockBasis := [.standard, .observed, .modified, .changed]

def PathScope.all : List PathScope := [.standard, .baseName, .wholeName]

abbrev NonemptyText := { t : Text // t ≠ [] }

/-- Where a since term starts: at a clock that the daemon gave out, or at a Unix second. -/
inductive Origin where
  | clock (value : NonemptyText)
  | timestamp (second : Int)
  deriving DecidableEq, Repr

inductive Expression where
  | constant (kind : Constant)
  | union (kind : Union) (first : Expression) (rest : List Expression)
  | negation (clause : Expression)
  | since (origin : Origin) (basis : ClockBasis)
  | suffix (value : NonemptyText)
  | pattern (kind : PatternKind) (value : NonemptyText) (scope : PathScope)
  | name (kind : NameKind) (first : NonemptyText) (rest : List NonemptyText) (scope : PathScope)
  | fileType (letter : CodePoint)
  deriving Repr

namespace Expression

def term : Expression → Term
  | constant kind => kind.term
  | union kind _ _ => kind.term
  | negation _ => .negation
  | since _ _ => .since
  | suffix _ => .suffix
  | pattern kind _ _ => kind.term
  | name kind _ _ _ => kind.term
  | fileType _ => .fileType

mutual

/-- Two expressions are equal when they have the same shape and equal payloads. -/
def decEq : (a b : Expression) → Decidable (a = b)
  | constant k, constant l => decidable_of_iff (k = l) (by simp)
  | union k a as, union l b bs =>
    match decEq a b, decEqList as bs with
    | .isTrue h, .isTrue hs => decidable_of_iff (k = l) (by simp [h, hs])
    | .isFalse h, _ => .isFalse (by simp [h])
    | _, .isFalse hs => .isFalse (by simp [hs])
  | negation a, negation b =>
    match decEq a b with
    | .isTrue h => .isTrue (by rw [h])
    | .isFalse h => .isFalse (by simp [h])
  | since o b, since p c => decidable_of_iff (o = p ∧ b = c) (by simp)
  | suffix s, suffix t => decidable_of_iff (s = t) (by simp)
  | pattern k s c, pattern l t d => decidable_of_iff (k = l ∧ s = t ∧ c = d) (by simp)
  | name k s ss c, name l t ts d =>
    decidable_of_iff (k = l ∧ s = t ∧ ss = ts ∧ c = d) (by simp)
  | fileType c, fileType d => decidable_of_iff (c = d) (by simp)
  | constant _, union .. | constant _, negation _ | constant _, since .. | constant _, suffix _
  | constant _, pattern .. | constant _, name .. | constant _, fileType _
  | union .., constant _ | union .., negation _ | union .., since .. | union .., suffix _
  | union .., pattern .. | union .., name .. | union .., fileType _
  | negation _, constant _ | negation _, union .. | negation _, since .. | negation _, suffix _
  | negation _, pattern .. | negation _, name .. | negation _, fileType _
  | since .., constant _ | since .., union .. | since .., negation _ | since .., suffix _
  | since .., pattern .. | since .., name .. | since .., fileType _
  | suffix _, constant _ | suffix _, union .. | suffix _, negation _ | suffix _, since ..
  | suffix _, pattern .. | suffix _, name .. | suffix _, fileType _
  | pattern .., constant _ | pattern .., union .. | pattern .., negation _ | pattern .., since ..
  | pattern .., suffix _ | pattern .., name .. | pattern .., fileType _
  | name .., constant _ | name .., union .. | name .., negation _ | name .., since ..
  | name .., suffix _ | name .., pattern .. | name .., fileType _
  | fileType _, constant _ | fileType _, union .. | fileType _, negation _ | fileType _, since ..
  | fileType _, suffix _ | fileType _, pattern .. | fileType _, name .. => .isFalse nofun
  termination_by structural a => a

def decEqList : (as bs : List Expression) → Decidable (as = bs)
  | [], [] => .isTrue rfl
  | [], _ :: _ | _ :: _, [] => .isFalse nofun
  | a :: as, b :: bs =>
    match decEq a b, decEqList as bs with
    | .isTrue h, .isTrue hs => .isTrue (by rw [h, hs])
    | .isFalse h, _ => .isFalse (by simp [h])
    | _, .isFalse hs => .isFalse (by simp [hs])
  termination_by structural as => as

end

instance : DecidableEq Expression := decEq

mutual

/-- Every node of the tree, the clauses of a node in order and before the node itself. -/
def nodes : Expression → List Expression
  | union kind first rest => nodes first ++ nodesOfAll rest ++ [union kind first rest]
  | negation clause => nodes clause ++ [negation clause]
  | constant kind => [constant kind]
  | since origin basis => [since origin basis]
  | suffix value => [suffix value]
  | pattern kind value scope => [pattern kind value scope]
  | name kind first rest scope => [name kind first rest scope]
  | fileType letter => [fileType letter]
  termination_by structural e => e

def nodesOfAll : List Expression → List Expression
  | [] => []
  | e :: rest => nodes e ++ nodesOfAll rest
  termination_by structural es => es

end

def terms (e : Expression) : List Term := e.nodes.map term

end Expression

end FileWatch
