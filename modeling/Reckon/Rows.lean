import Reckon.Files
import Reckon.Json.Reader
import Reckon.Json.Writer
import Reckon.Text.Blank
import Reckon.Text.Lines
import Reckon.Tree

/-!
# Rows

Files with one JSON object a line. Blank lines are skipped but counted, so that a fault of a line
names the physical line it was found in; the rows before that line are still read. What is too long
or too deep for a reader has no line in its fault. Of a file that is no text the complete lines of
its readable part are read.
-/

set_option autoImplicit false

namespace Reckon.Rows

inductive Cause where
  | invalid (fault : Json.ReadFault)
  | notAnObject
deriving DecidableEq

inductive Fault where
  | atLine (number : Nat) (cause : Cause)
  | undecodable
deriving DecidableEq

def Fault.message (path : Text) : Fault → Text
  | .atLine number cause =>
    let place : Text := path ++ ":" ++ toString number ++ ": "
    match cause with
    | .invalid (.malformed cause position line column) =>
      place ++ "invalid json: " ++ (Json.ReadFault.malformed cause position line column).message
    | .invalid other => other.message
    | .notAnObject => place ++ "expected an object row"
  | .undecodable => FileFault.undecodable.message

structure Reading where
  rows : List Json
  fault? : Option Fault

/-- The row in a line that is not blank. -/
def ofLine (line : List Char) : Except Cause Json :=
  match Json.readWithin depthLimit line with
  | .error fault => .error (.invalid fault)
  | .ok (.object members) => .ok (.object members)
  | .ok _ => .error .notAnObject

/-- The rows in lines, the first of which has a number. -/
def ofLines (number : Nat) : List (List Char) → Reading
  | [] => ⟨[], none⟩
  | line :: rest =>
    match Text.trimmed line with
    | [] => ofLines (number + 1) rest
    | trimmed =>
      match ofLine trimmed with
      | .error cause => ⟨[], some (.atLine number cause)⟩
      | .ok row =>
        let reading := ofLines (number + 1) rest
        ⟨row :: reading.rows, reading.fault?⟩

def read (text : String) : Reading :=
  ofLines 1 (Text.physicalLines text.toList)

def ofContent : Content → Reading
  | .text text => read text
  | .undecodable readable =>
    let reading := ofLines 1 (Text.completeLines readable.toList)
    ⟨reading.rows, some (reading.fault?.getD .undecodable)⟩

def load (files : Files) (path : Text) : Except FileFault Reading := do
  return ofContent (← files.content path)

/-- Rows as a text, each on a line of its own. -/
def write (rows : List Json) : String :=
  String.join (rows.map fun row => row.line ++ "\n")

/-- What was written so far, and how many rows that is. -/
structure Written where
  count : Nat
  text : String

def Written.add (written : Written) (row : Json) : Written :=
  ⟨written.count + 1, written.text ++ (row.line ++ "\n")⟩

/-- Writes rows to a file one after the other, makes the directories above it first, and counts the
rows. -/
def save (files : Files) (path : Text) (rows : List Json) : Except FileFault (Nat × Files) := do
  let written := rows.foldl Written.add ⟨0, ""⟩
  return (written.count, ← files.save path written.text)

end Reckon.Rows
