import Reckon.Command.Compare
import Reckon.Command.Interpret
import Reckon.Command.Options
import Reckon.Document.Meaning
import Reckon.Text.Lines

/-!
# Commands from a line

Runs a command on the arguments of a line: reads its options from them, with documents read from the
contents of files and averages that are rounded once. A line that does not fit ends a command with
status 2 and prints nothing.
-/

set_option autoImplicit false

namespace Reckon.Command

def interpretSpecs : List OptionSpec :=
  [⟨"--expression", "expression", .value⟩, ⟨"-e", "expression", .value⟩,
   ⟨"--config", "config", .value⟩, ⟨"--strategy", "strategy", .value⟩,
   ⟨"--max-iterations", "cap", .value⟩, ⟨"--steps", "steps", .switch true⟩,
   ⟨"--no-steps", "steps", .switch false⟩, ⟨"--trace", "trace", .switch true⟩,
   ⟨"--no-trace", "trace", .switch false⟩, ⟨"--json", "json", .switch true⟩,
   ⟨"--log-level", "level", .value⟩]

def InterpretOptions.ofArguments? (arguments : List Text) : Option InterpretOptions := do
  let settings ← Settings.ofArguments? interpretSpecs arguments
  return {
    expression := ← settings.text? "expression"
    config := (settings.text? "config").getD ""
    strategy? := settings.text? "strategy"
    cap? := ← settings.integer? "cap"
    steps? := settings.switch? "steps"
    trace? := settings.switch? "trace"
    asJson := (settings.switch? "json").getD false
    level := (settings.text? "level").getD "WARNING" }

def compareSpecs : List OptionSpec :=
  [⟨"--config", "config", .value⟩, ⟨"--expressions", "expressions", .value⟩,
   ⟨"--out", "out", .value⟩, ⟨"--out-path", "out", .value⟩, ⟨"--max-iterations", "cap", .value⟩]

def CompareOptions.ofArguments? (arguments : List Text) : Option CompareOptions := do
  let settings ← Settings.ofArguments? compareSpecs arguments
  return {
    config := (settings.text? "config").getD ""
    expressions? := settings.text? "expressions"
    out? := settings.text? "out"
    cap? := ← settings.integer? "cap" }

def sourceOf : Content → Document.Source
  | .text text => .ofText (Text.unifyLineEnds text.toList)
  | .undecodable readable => .ofReadable (Text.unifyLineEnds readable.toList)

def loadDocument (content : Content) : Except Document.Fault Datum :=
  Document.read (sourceOf content)

def interpretCommand (arguments : List Text) (files : Files) : Result :=
  match InterpretOptions.ofArguments? arguments with
  | some options => runInterpret loadDocument options files
  | none => .silent files 2

def compareCommand (arguments : List Text) (files : Files) : Result :=
  match CompareOptions.ofArguments? arguments with
  | some options => runCompare loadDocument .nearest options files
  | none => .silent files 2

end Reckon.Command
