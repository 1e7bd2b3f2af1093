import Reckon.Command.Result
import Reckon.Json.Writer
import Reckon.Presentation

/-!
# Interpreting as a command

Interprets one expression and prints its report, as the options of the command ask for. The command
handles what keeps it from finding its settings, save for a document whose form, size or depth is at
fault, a strategy that goes too deep to be written and a cap that no integer is near; it then ends
with status 1, as it does when the expression is at fault. A log that shows the settings has to
write them.
-/

set_option autoImplicit false

namespace Reckon.Command

/-- What the options of the command are set to. -/
structure InterpretOptions where
  expression : Text
  config : Text
  strategy? : Option Text
  cap? : Option Int
  steps? : Option Bool
  trace? : Option Bool
  asJson : Bool
  level : Text

/-- Whether the setting up of a command handles a fault of the configuration. Of a document it
handles only values that are none and bytes that are no text. -/
def handlesConfig : Config.Fault → Bool
  | .document (.value _) => true
  | .document .undecodable => true
  | .document _ => false
  | _ => true

def handlesStrategy : StrategyFault → Bool
  | .unwritten .tooDeep => false
  | _ => true

def handlesCap : Datum.IntegerFault → Bool
  | .text _ => true
  | .notANumber => true
  | _ => false

structure Setup where
  config : Config
  strategy : Strategy
  cap? : Option Int

inductive SetupFault where
  | config (fault : Config.Fault)
  | strategy (fault : StrategyFault)
  | cap (fault : Datum.IntegerFault)
deriving DecidableEq

def SetupFault.isHandled : SetupFault → Bool
  | .config fault => handlesConfig fault
  | .strategy fault => handlesStrategy fault
  | .cap fault => handlesCap fault

def SetupFault.toEscape : SetupFault → Escape
  | .config fault => .config fault
  | .strategy (.unwritten fault) => .unwritten fault
  | .strategy (.unknown fault) => .run fault
  | .cap fault => .cap fault

def setUp (loader : Config.Loader) (options : InterpretOptions) (files : Files) :
    Except SetupFault Setup := do
  let config ← (Config.load loader files (some options.config)).mapError SetupFault.config
  let strategy ←
    (resolveStrategy options.strategy? config defaultStrategyName).mapError SetupFault.strategy
  let cap? ← (resolveCap (options.cap?.map Datum.integer) config).mapError SetupFault.cap
  return ⟨config, strategy, cap?⟩

/-- A part of a report with a blank line and a heading above it, when it is wanted. -/
def reportPart (wanted : Bool) (heading : Text) (lines : List Text) : List Text :=
  if wanted then "" :: heading :: lines else []

def reportLines (report : Report) (withSteps withTrace : Bool) : List Text :=
  (["Result: " ++ report.result.display, "", report.parseTree] : List Text)
    ++ reportPart withSteps ("Parsing steps (" ++ report.strategy.name ++ "):")
      (report.parsingSteps.map Step.line)
    ++ reportPart withTrace "Evaluation:" report.evaluationSteps

def printInterpretation (files : Files) (options : InterpretOptions) (setup : Setup) : Result :=
  match interpret options.expression setup.strategy.name setup.cap? with
  | .error fault =>
    match fault.diagnosis? with
    | some diagnosis => ⟨1, printed [diagnosis.shown (Text.trim options.expression)], none, files⟩
    | none => .escape files (.run fault)
  | .ok report =>
    if options.asJson then ⟨0, printed [report.toJson.indented], none, files⟩
    else
      let flag := fun (given? : Option Bool) (key : Text) =>
        resolveFlag (given?.map Datum.boolean) setup.config key false
      let lines := reportLines report (flag options.steps? "show_steps")
        (flag options.trace? "show_trace")
      ⟨0, printed lines, none, files⟩

/-- Whether a log of a level fails to show the settings. -/
def cannotLog (level : Int) (setup : Setup) : Bool :=
  level ≤ Verbosity.standard && setup.cap?.any fun cap => !Datum.isWritableInteger cap

def runInterpret (loader : Config.Loader) (options : InterpretOptions) (files : Files) : Result :=
  match Verbosity.levelOfName? (some options.level) Verbosity.standard with
  | none => .escape files (.unknownLevel options.level)
  | some level =>
    match setUp loader options files with
    | .error fault => if fault.isHandled then .silent files 1 else .escape files fault.toEscape
    | .ok setup =>
      if cannotLog level setup then .escape files (.unwritten .tooLong)
      else printInterpretation files options setup

end Reckon.Command
