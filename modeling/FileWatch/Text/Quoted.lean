import FileWatch.Text.Printable
/-!
Quoted forms, in which a text or a run of bytes is shown inside a message. The quote is an
apostrophe, unless the content holds an apostrophe and no double quote.
-/

namespace FileWatch

/-- The quote that fits a content: the double quote only where it saves an escape. -/
def quoteFor (hasApostrophe hasDouble : Bool) : CodePoint :=
  if hasApostrophe && !hasDouble then '"' else '\''

def CodePoint.escaped (quote c : CodePoint) : Text :=
  if c = quote || c = '\\' then ['\\', c]
  else if c = '\t' then "\\t"
  else if c = '\n' then "\\n"
  else if c = '\r' then "\\r"
  else if c.isPrintable then [c]
  else if c.val < 0x100 then "\\x" ++ Text.hexadecimal 2 c.val
  else if c.val < 0x10000 then "\\u" ++ Text.hexadecimal 4 c.val
  else "\\U" ++ Text.hexadecimal 8 c.val

def Text.quoted (t : Text) : Text :=
  let quote := quoteFor (List.contains t '\'') (List.contains t '"')
  quote :: t.flatMap (CodePoint.escaped quote) ++ [quote]

def escapedByte (quote : CodePoint) (b : UInt8) : Text :=
  let c : CodePoint := Fin.ofNat 0x110000 b.toNat
  if b < 0x7f then CodePoint.escaped quote c else "\\x" ++ Text.hexadecimal 2 b.toNat

def quotedBytes (bytes : Bytes) : Text :=
  let quote := quoteFor (bytes.elem 0x27) (bytes.elem 0x22)
  (['b', quote] : Text) ++ bytes.flatMap (escapedByte quote) ++ [quote]

end FileWatch
