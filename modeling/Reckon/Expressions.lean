import Reckon.Datum
import Reckon.Rows

/-!
# Expression files

A batch of expressions comes from a file. In a file of rows each row may name an expression, and one
that is no text is taken by its plain text. Any other file is a text with one expression a line,
where blank lines and lines that start with a hash sign are skipped.
-/

set_option autoImplicit false

namespace Reckon.Expressions

inductive Fault where
  | file (fault : FileFault)
  | row (fault : Rows.Fault) (path : Text)
deriving DecidableEq

def Fault.message : Fault → Text
  | .file fault => fault.message
  | .row fault path => fault.message path

def ofRows (rows : List Json) : List Text :=
  rows.filterMap fun row => (row.member? "expression").map fun value => (Datum.ofJson value).plain

def ofLine? (line : List Char) : Option Text :=
  match Text.trimmed line with
  | [] => none
  | '#' :: _ => none
  | trimmed => some (.ofCharacters trimmed)

def ofText (text : String) : List Text :=
  (Text.displayedLines text.toList).filterMap ofLine?

def rowsExtension : Text := "jsonl"

def read (files : Files) (path : Text) : Except Fault (List Text) := do
  if Path.extension? path = some rowsExtension then
    let content ← (files.content (Path.normal path)).mapError Fault.file
    let reading := Rows.ofContent content
    match reading.fault? with
    | some fault => .error (.row fault (Path.normal path))
    | none => return ofRows reading.rows
  else return ofText (← (files.read (Path.normal path)).mapError Fault.file)

end Reckon.Expressions
