import FileWatch.Report.Console
import FileWatch.Report.Style
/-!
Markup in printed text. A tag stands in brackets and begins with a small letter, a number sign, a
slash or an at sign. It opens a style, or with a slash closes the latest one of its name, or the
latest of all when it has none. A backslash in front of a tag makes it plain text. Only the text
without its tags is printed. Tags that are more than the name of a style are looked at again when
the text is laid out, which is the console's part.
-/

namespace FileWatch.Markup

structure Tag where
  name : Text
  parameters : Option Text
  deriving DecidableEq, Repr

namespace Tag

def ofBody (body : Text) : Tag :=
  let name := body.takeWhile fun c : CodePoint => c != '='
  match body.drop name.length with
  | _ :: parameters => ⟨name, some parameters⟩
  | [] => ⟨name, none⟩

def markup (t : Tag) : Text :=
  let parameters : Text :=
    match t.parameters with
    | some p => '=' :: p
    | none => []
  ("[" : Text) ++ t.name ++ parameters ++ "]"

def closes? (t : Tag) : Option Text :=
  match t.name with
  | c :: name => if c = '/' then some (Text.strip name) else none
  | [] => none

def isStyle (t : Tag) : Bool :=
  t.parameters.isNone && (Style.readWords {} (Text.words t.name)).toBool

/-- Whether a tag calls for more than its name when the text is laid out. -/
def isInvolved (t : Tag) : Bool := t.closes?.isNone && !t.isStyle

end Tag

/-- Why markup cannot be printed: a tag closes what is not open, a name is at fault, or the console
finds a fault. Positions are counted in the whole markup. -/
inductive Error where
  | notOpen (tag : Tag) (position : Nat)
  | nothingOpen (position : Nat)
  | badName (e : ColourError)
  | fault (e : TagFault)
  deriving DecidableEq, Repr

def Error.message : Error → Text
  | .notOpen tag position =>
    ("closing tag '" : Text) ++ tag.markup ++ "' at position " ++ Text.ofNat position ++
      " doesn't match any open tag"
  | .nothingOpen position =>
    ("closing tag '[/]' at position " : Text) ++ Text.ofNat position ++ " has nothing to close"
  | .badName (.part literal .malformed) => Numeral.malformed literal
  | .badName (.part _ (.tooLong digits)) => Numeral.tooManyDigits digits
  | .badName .unknown => []
  | .fault e => e.message

inductive Piece where
  | plain (c : CodePoint)
  | tag (position : Nat) (t : Tag)
  deriving DecidableEq, Repr

def Piece.plain? : Piece → Option CodePoint
  | .plain c => some c
  | .tag .. => none

def Piece.tag? : Piece → Option (Nat × Tag)
  | .plain _ => none
  | .tag position t => some (position, t)

def opensTag (c : CodePoint) : Bool :=
  (0x61 ≤ c.val && c.val ≤ 0x7a) || c = '#' || c = '/' || c = '@'

def tagBody? (t : Text) : Option Text :=
  let body := t.takeWhile fun c : CodePoint => c != '[' && c != ']'
  if (body.head?.map opensTag).getD false && (t.drop body.length).head? = some ']' then some body
  else none

/-- The pieces of the text from `position` on, where its first `skip` code points belong to a tag
already and `backslashes` stand right before it. Each pair of backslashes in front of a tag is one
that is printed, and one before any other opening bracket is not printed. -/
def piecesFrom (position skip backslashes : Nat) : Text → List Piece
  | [] => List.replicate backslashes (.plain '\\')
  | c :: rest =>
    match skip with
    | skip + 1 => piecesFrom (position + 1) skip 0 rest
    | 0 =>
      if c = '\\' then piecesFrom (position + 1) 0 (backslashes + 1) rest
      else if c = '[' then
        match tagBody? rest with
        | some body =>
          List.replicate (backslashes / 2) (.plain '\\') ++
            if backslashes % 2 = 0 then
              .tag position (Tag.ofBody body) ::
                piecesFrom (position + 1) (body.length + 1) 0 rest
            else .plain c :: piecesFrom (position + 1) 0 0 rest
        | none =>
          List.replicate (backslashes - 1) (.plain '\\') ++
            .plain c :: piecesFrom (position + 1) 0 0 rest
      else
        List.replicate backslashes (.plain '\\') ++
          .plain c :: piecesFrom (position + 1) 0 0 rest

def pieces (t : Text) : List Piece := piecesFrom 0 0 0 t

def follow (opened : List Text) (tag : Nat × Tag) : Except Error (List Text) :=
  let (position, t) := tag
  match t.closes? with
  | none => do pure ((← (Style.normalName t.name).mapError .badName) :: opened)
  | some [] =>
    match opened with
    | [] => .error (.nothingOpen position)
    | _ :: rest => .ok rest
  | some name => do
    let name ← (Style.normalName name).mapError .badName
    if opened.contains name then pure (opened.erase name) else throw (.notOpen t position)

/-- The first fault of markup. The console speaks of it only where it has tags to look at. -/
def fault? (c : Console) (markup : Text) : Option TagFault :=
  if ((pieces markup).filterMap Piece.tag?).any (·.2.isInvolved) then c.tagFault markup
  else none

def text (c : Console) (markup : Text) : Except Error Text := do
  if let some e := fault? c markup then throw (.fault e)
  let parts := pieces markup
  let _ ← (parts.filterMap Piece.tag?).foldlM follow []
  pure (c.pictured markup (parts.filterMap Piece.plain?))

end FileWatch.Markup
