import FileWatch.Config.Sections
/-!
References between options. In a value `%(name)s` stands for the value of the option `name`, which
may hold references itself, and `%%` for a percent sign. References are followed ten levels deep.
-/

namespace FileWatch.Config

inductive InterpolationError where
  | badReference (rest : Text)
  | badPercent (rest : Text)
  | missing (option sectionName reference raw : Text)
  | tooDeep (option sectionName raw : Text)
  deriving DecidableEq, Repr

def InterpolationError.message : InterpolationError → Text
  | .badReference rest => ("bad interpolation variable reference " : Text) ++ rest.quoted
  | .badPercent rest => ("'%' must be followed by '%' or '(', found: " : Text) ++ rest.quoted
  | .missing option name reference raw =>
    ("Bad value substitution: option " : Text) ++ option.quoted ++ " in section " ++
      name.quoted ++ " contains an interpolation key " ++ reference.quoted ++
      " which is not a valid option name. Raw value: " ++ raw.quoted
  | .tooDeep option name raw =>
    ("Recursion limit exceeded in value substitution: option " : Text) ++ option.quoted ++
      " in section " ++ name.quoted ++
      " contains an interpolation key which cannot be substituted in 10 steps. Raw value: " ++
      raw.quoted

/-- The parts of a value. A part that is no proper reference ends the value. -/
inductive Piece where
  | literal (c : CodePoint)
  | reference (name : Text)
  | badReference (rest : Text)
  | badPercent (rest : Text)
  deriving DecidableEq, Repr

def referenceName? (t : Text) : Option Text :=
  match t with
  | c :: body =>
    let name := body.takeWhile fun c : CodePoint => c != ')'
    let closing : Text := ")s"
    if c = '(' && !name.isEmpty && closing.isPrefixOf (body.drop name.length) then some name
    else none
  | [] => none

/-- The parts of the text after its first `skip` code points, which belong to a part already. -/
def piecesFrom : (skip : Nat) → Text → List Piece
  | _, [] => []
  | skip + 1, _ :: rest => piecesFrom skip rest
  | 0, c :: rest =>
    if c = '%' then
      match rest with
      | d :: _ =>
        if d = '%' then .literal '%' :: piecesFrom 1 rest
        else if d = '(' then
          match referenceName? rest with
          | some name => .reference name :: piecesFrom (name.length + 3) rest
          | none => [.badReference (c :: rest)]
        else [.badPercent (c :: rest)]
      | [] => [.badPercent [c]]
    else .literal c :: piecesFrom 0 rest

def pieces (t : Text) : List Piece := piecesFrom 0 t

structure Scope where
  sectionName : Text
  visible : Options
  deriving DecidableEq, Repr

/-- The text of a value whose references may go `levels` levels deep. The value belongs to
`option`, or an option of which the value is `raw` refers to it. -/
def Scope.expand (s : Scope) (option raw : Text) : Nat → Text → Except InterpolationError Text
  | 0, _ => .error (.tooDeep option s.sectionName raw)
  | levels + 1, value => do
    let parts ← (pieces value).mapM fun piece =>
      match piece with
      | .literal c => pure [c]
      | .badReference rest => throw (.badReference rest)
      | .badPercent rest => throw (.badPercent rest)
      | .reference name =>
        let name := Text.lower name
        match s.visible.lookup name with
        | none => throw (.missing option s.sectionName name raw)
        | some v =>
          if List.contains v '%' then s.expand option raw levels v else pure v
    pure parts.flatten

def Scope.resolve (s : Scope) : Except InterpolationError Options :=
  s.visible.mapM fun (option, raw) => do
    let value ← s.expand option raw 10 raw
    pure (option, value)

def merge (options others : Options) : Options :=
  others.foldl (fun all (name, value) =>
    if (all.lookup name).isSome then
      all.map fun (n, v) => if n = name then (n, value) else (n, v)
    else all ++ [(name, value)]) options

def clientSection : Text := "CLIENT"

def Sections.scope (s : Sections) (name : Text) (own : Options) : Scope :=
  ⟨name, own ++ s.defaults.filter fun (n, _) => (own.lookup n).isNone⟩

/-- The settings of a client: the defaults, with what the client's section sees over them. Both
are worked out, each in its own section. -/
def Sections.client (s : Sections) : Except InterpolationError Options := do
  let defaults ← Scope.resolve ⟨defaultSection, s.defaults⟩
  match s.sections.lookup clientSection with
  | none => pure defaults
  | some own => pure (merge defaults (← (s.scope clientSection own).resolve))

end FileWatch.Config
