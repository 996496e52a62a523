import FileWatch.Json.Encode
import FileWatch.Query.Field
import FileWatch.Reply
import FileWatch.Report.Console
import FileWatch.Report.Markup
import FileWatch.Report.Table
/-!
What a person reads: errors, the watched roots, and the answer to a query as a table or as JSON.
File names, roots and clocks are printed as markup, so a tag in one of them is not shown and one
that closes nothing ends the report.
-/

namespace FileWatch.Report

inductive Error where
  | markup (e : Markup.Error)
  | tooLong (e : Numeral.TooLong)
  | json (e : Json.EncodeError)
  | notMask (kind : String)
  | unprintable (e : Utf8.EncodeError) (advice : Text)
  deriving DecidableEq, Repr

def Error.message : Error → Text
  | .markup e => e.message
  | .tooLong e => e.message
  | .json e => e.message
  | .notMask kind =>
    ("unsupported operand type(s) for &: '" : Text) ++ kind ++ "' and 'Field'"
  | .unprintable e advice => e.message ++ advice

/-- A report is printed on a console bit by bit, and what is printed before an error stays. -/
abbrev Printer := ReaderT Console (EStateM Error Text)

def lift {ε α : Type} (error : ε → Error) : Except ε α → Printer α
  | .ok a => pure a
  | .error e => throw (error e)

/-- Prints a text at once; `advice` is for the reader of the error where the console refuses it. -/
def write (advice t : Text) : Printer Unit := do
  let written ← lift (.unprintable · advice) ((← read).write t)
  modify (· ++ written)

def emit (t : Text) : Printer Unit := write [] t

def display (t : Text) : Printer Unit := do write (← read).advice t

/-- Bell, backspace, vertical tab, form feed and carriage return are never printed. -/
def isControl (c : CodePoint) : Bool :=
  c.val = 7 || c.val = 8 || c.val = 11 || c.val = 12 || c.val = 13

def shown (markup : Text) : Printer Text := do
  pure ((← lift .markup (Markup.text (← read) markup)).filter fun c => !isControl c)

def printLine (markup : Text) : Printer Unit := do
  display ((Text.wrap (← read).width (← shown markup)).flatMap (· ++ ("\n" : Text)))

def failure (message : Text) : Printer Unit :=
  printLine (("[red]Error:[/red] " : Text) ++ message)

def success (message : Text) : Printer Unit :=
  printLine (("[green]" : Text) ++ message ++ "[/green]")

def roots (w : WatchedRoots) : Printer Unit :=
  if w.roots.isEmpty then printLine "[dim]No watched roots[/dim]"
  else w.roots.forM printLine

structure FileColumn where
  column : Column
  cell : FileRecord → Except Numeral.TooLong Text

/-- The columns of the table of files. Each but the first is there if its attribute is selected. -/
def fileColumns (mask : Int) : List FileColumn :=
  let optional (f : Field) (c : FileColumn) : List FileColumn :=
    if Field.isIn mask f then [c] else []
  [⟨⟨"Name", .left⟩, fun s => .ok s.name⟩] ++
    optional .existence ⟨⟨"Exists", .left⟩, fun s => .ok (if s.existing then "yes" else "no")⟩ ++
    optional .size ⟨⟨"Size", .right⟩, fun s => Numeral.write s.size⟩ ++
    optional .new ⟨⟨"New", .left⟩, fun s => .ok (if s.isNew then "yes" else "")⟩

def maskOf (fields : Value) : Printer Int :=
  match fields with
  | .int n => pure n
  | .bool b => pure (if b then 1 else 0)
  | v => throw (.notMask v.fullKindName)

/-- Prints the answer to a query as a table, which has a column for each of some attributes that is
among `fields`, with the number of files and the clock below it. -/
def answer (r : QueryAnswer) (fields : Value) : Printer Unit := do
  let columns := fileColumns (← maskOf fields)
  let cells ← r.files.mapM fun s => columns.mapM fun c => lift .tooLong (c.cell s)
  let rows ← cells.mapM fun row => row.mapM shown
  display (Table.render ⟨columns.map FileColumn.column, rows⟩)
  let fresh : Text := if r.isFreshInstance then " (fresh instance)" else ""
  printLine (("[dim]" : Text) ++ Text.ofNat r.files.length ++ " files, clock " ++ r.clock ++
    fresh ++ "[/dim]")

/-- Two surrogates side by side that make up one code point become that code point. -/
def joinSurrogates : Text → Text
  | c :: d :: rest =>
    if c.isHighSurrogate && d.isLowSurrogate then
      Fin.ofNat 0x110000 (0x10000 + (c.val - 0xD800) * 0x400 + (d.val - 0xDC00)) ::
        joinSurrogates rest
    else c :: joinSurrogates (d :: rest)
  | t => t

def fileValue (s : FileRecord) : Value :=
  .dict [(.text "name", .text (joinSurrogates s.name)), (.text "exists", .bool s.existing),
    (.text "mode", .int s.mode), (.text "new", .bool s.isNew), (.text "size", .int s.size)]

def queryValue (r : QueryAnswer) : Value :=
  .dict [(.text "version", .text (joinSurrogates r.version)),
    (.text "clock", .text (joinSurrogates r.clock)),
    (.text "is_fresh_instance", .bool r.isFreshInstance),
    (.text "files", .list (r.files.map fileValue))]

def answerJson (r : QueryAnswer) : Printer Unit := do
  display ((← lift .json (Json.encode .indented (queryValue r))) ++ ("\n" : Text))

end FileWatch.Report
