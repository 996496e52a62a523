import FileWatch.Query.Construct
/-!
Filters of a query, as they are given on a command line, and the expression that is their
conjunction. A filter that is empty counts as not given.
-/

namespace FileWatch

/-- A file passes when it has one of the suffixes, one of the names, a change since the clock and
the type; what is not given lets every file pass. -/
structure Filters where
  suffixes : Value := .list []
  names : Value := .list []
  since : Value := .null
  fileType : Value := .null
  deriving Repr

namespace Filters

open Expression

/-- A clause from a value, unless it counts as not given. -/
def clause (v : Value) (build : Value → Except ArgumentError Expression) :
    Except ArgumentError (List Expression) :=
  if v.isTruthy then (build v).map fun e => [e] else .ok []

def suffixClause (suffixes : Value) : Except ArgumentError (List Expression) := do
  match ← suffixes.length.mapError .misuse with
  | 0 => pure []
  | 1 =>
    let e ← buildSuffix (← suffixes.firstMember.mapError .misuse)
    pure [e]
  | _ =>
    let clauses ← (← members suffixes).mapM buildSuffix
    pure [← buildUnion .anyOf (clauses.map .expression)]

def clauses (f : Filters) : Except ArgumentError (List Expression) := do
  let fileType ← clause f.fileType buildFileType
  let since ← clause f.since fun clock => buildSinceClock clock none
  let names ← clause f.names fun names => do buildName .exact (← candidates names) none
  let suffixes ← suffixClause f.suffixes
  pure (fileType ++ since ++ names ++ suffixes)

def expression (f : Filters) : Except ArgumentError Expression := do
  match ← f.clauses with
  | [] => pure (constant .always)
  | [e] => pure e
  | first :: rest => pure (union .allOf first rest)

end Filters

end FileWatch
