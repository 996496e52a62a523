import FileWatch.Text.Blank
import FileWatch.Text.Utf8
/-!
Consoles, where reports are printed. What a report looks like depends on the width of the console
and on what it does with text that has no encoding. Two things are left to the library that lays
markup out, and are known here by their outcome: the pictures that take the places of their codes,
and the faults of tags that are more than the name of a style.
-/

namespace FileWatch

/-- What becomes of a lone surrogate, which has no encoding: it is written all the same, the text is
refused, or an escape is written for it. -/
inductive SurrogateRule where
  | kept
  | refused
  | escaped
  deriving DecidableEq, Repr

inductive TagFault where
  | parameters (message : Text)
  | style (message : Text)
  deriving DecidableEq, Repr

def TagFault.message : TagFault → Text
  | .parameters message | .style message => message

/-- A console. Of markup and its plain text, `pictured` gives the text with pictures; their codes
stand between colons and hold no white space. `advice` is added to the complaint about a text that
is refused. -/
structure Console where
  width : Nat := 80
  surrogates : SurrogateRule := .kept
  pictured : Text → Text → Text := fun _ plain => plain
  tagFault : Text → Option TagFault := fun _ => none
  advice : Text := []
  pictured_front : ∀ (markup front : Text) (space : CodePoint) (rest : Text),
    (∀ p ∈ front, p ≠ ':') → space.isBlank = true →
      ∃ rest', pictured markup (front ++ (':' :: space :: rest : Text)) =
        front ++ (':' :: space :: rest' : Text) := by
    intro _ _ _ rest _ _
    exact ⟨rest, rfl⟩
  pictured_colonless : ∀ markup plain : Text, (∀ p ∈ plain, p ≠ ':') →
      pictured markup plain = plain := by
    intro _ _ _
    rfl

namespace Console

def escape (c : CodePoint) : Text :=
  if c.isSurrogate then ("\\u" : Text) ++ Text.hexadecimal 4 c.val else [c]

def write (c : Console) (t : Text) : Except Utf8.EncodeError Text :=
  match c.surrogates with
  | .kept => .ok t
  | .refused => (Utf8.encode t).map fun _ => t
  | .escaped => .ok (t.flatMap escape)

end Console

end FileWatch
