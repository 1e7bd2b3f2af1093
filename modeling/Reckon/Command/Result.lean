import Reckon.Config
import Reckon.Expressions
import Reckon.Interpretation
import Reckon.Verbosity

/-!
# Results of commands

What came of a command: the status it ends with, what it prints, the files afterwards, and the fault
that escaped from it, if one did. A fault that escapes ends a command with status 1.
-/

set_option autoImplicit false

namespace Reckon.Command

inductive Escape where
  | unknownLevel (name : Text)
  | config (fault : Config.Fault)
  | cap (fault : Datum.IntegerFault)
  | pathType (typeName : String)
  | unwritten (fault : Datum.WritingFault)
  | file (fault : FileFault)
  | expressions (fault : Expressions.Fault)
  | run (fault : Fault)
deriving DecidableEq

def Escape.message : Escape → Text
  | .unknownLevel name => Verbosity.unknownMessage name
  | .config fault => fault.message
  | .cap fault => fault.message
  | .pathType typeName => "a path cannot be of type " ++ typeName
  | .unwritten fault => fault.message
  | .file fault => fault.message
  | .expressions fault => fault.message
  | .run fault => fault.message

structure Result where
  exit : Nat
  output : Text
  escaped : Option Escape
  files : Files

/-- A command that ends with a status and prints nothing more. -/
def Result.silent (files : Files) (exit : Nat) : Result :=
  ⟨exit, "", none, files⟩

def Result.escape (files : Files) (escape : Escape) : Result :=
  ⟨1, "", some escape, files⟩

/-- Lines of text, each with its end. -/
def printed (lines : List Text) : Text :=
  ⟨lines.flatMap fun line => line.toList ++ [Glyph.whole '\n']⟩

end Reckon.Command
