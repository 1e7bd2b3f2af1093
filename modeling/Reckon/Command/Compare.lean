import Reckon.Command.Result
import Reckon.Expressions
import Reckon.Json.Writer
import Reckon.Presentation

/-!
# Comparing as a command

Compares the strategies on a file of expressions and writes a report to another file, as the options
of the command ask for. The command ends with status 2 when nothing names the expressions, and with
status 1 when the expressions cannot be read or the strategies disagree on one of them.
-/

set_option autoImplicit false

namespace Reckon.Command

/-- What the options of the command are set to. -/
structure CompareOptions where
  config : Text
  expressions? : Option Text
  out? : Option Text
  cap? : Option Int

def wanted? (config : Config) (key : String) : Option Datum :=
  (Datum.lookupText key config).filter Datum.isTrue

def outputPath (config : Config) : Datum :=
  ((wanted? config "compare_out_path").or (wanted? config "out_path")).getD
    (.text "out/compare.json")

def optionalDatum (text? : Option Text) : Datum :=
  (text?.map Datum.text).getD .null

structure Plan where
  source : Text
  output : Text
  cap? : Option Int
deriving DecidableEq

inductive PlanFault where
  | noExpressions
  | escape (escape : Escape)
deriving DecidableEq

def written (datum : Datum) : Except PlanFault Text :=
  (datum.writtenWithin depthLimit).mapError fun fault => .escape (.unwritten fault)

/-- What the options and the configuration that they name ask for. -/
def planComparison (loader : Config.Loader) (options : CompareOptions) (files : Files) :
    Except PlanFault Plan := do
  let config ← (Config.load loader files (some options.config)).mapError fun fault =>
    .escape (.config fault)
  let merged := Config.merge config
    [("expressions_path", optionalDatum options.expressions?),
     ("out_path", optionalDatum options.out?)]
  let some source := wanted? merged "expressions_path" | .error .noExpressions
  let output ← written (outputPath merged)
  let resolved? ← (resolveCap (options.cap?.map Datum.integer) config).mapError fun fault =>
    .escape (.cap fault)
  let path ← written source
  match source with
  | .text _ => return ⟨path, output, resolved?⟩
  | other => .error (.escape (.pathType other.typeName))

def writeReport (averages : Averages) (files : Files) (output : Text) (batch : Batch) : Result :=
  match files.makeDirectories (Path.parent output) with
  | .error fault => .escape files (.file fault)
  | .ok prepared =>
    match prepared.write (Path.normal output) (batch.toJson averages).indented with
    | .error fault => .escape prepared (.file fault)
    | .ok after => .silent after (if batch.disagreements.isEmpty then 0 else 1)

/-- Whether the comparison handles a fault of its expressions. Depth is what it does not handle. -/
def handlesExpressions : Expressions.Fault → Bool
  | .row (.atLine _ (.invalid .tooDeep)) _ => false
  | _ => true

def compareAsPlanned (averages : Averages) (plan : Plan) (files : Files) : Result :=
  match Expressions.read files plan.source with
  | .error fault =>
    if handlesExpressions fault then .silent files 1 else .escape files (.expressions fault)
  | .ok expressions =>
    match compareBatch expressions plan.cap? with
    | .error fault => .escape files (.run fault)
    | .ok batch => writeReport averages files plan.output batch

def runCompare (loader : Config.Loader) (averages : Averages) (options : CompareOptions)
    (files : Files) : Result :=
  match planComparison loader options files with
  | .ok plan => compareAsPlanned averages plan files
  | .error (.escape escape) => .escape files escape
  | .error .noExpressions => .silent files 2

end Reckon.Command
