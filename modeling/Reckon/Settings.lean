import Reckon.Datum
import Reckon.Parsing.Strategy

/-!
# Settings

How the settings of a run are found: what the user gives goes before the configuration, and the
configuration before the default. A configuration is the entries of a mapping; without one there are
no entries.
-/

set_option autoImplicit false

namespace Reckon

abbrev Config := List (Datum × Datum)

namespace Config

/-- The value of a key that is not nothing. -/
def given? (config : Config) (key : Text) : Option Datum :=
  match Datum.lookupText key config with
  | some .null => none
  | value? => value?

/-- The configuration with other values in place of its own, save where they are nothing. -/
def merge (config : Config) (overrides : List (Text × Datum)) : Config :=
  overrides.foldl (fun merged (key, value) =>
    match value with
    | .null => merged
    | value => Datum.setText key value merged) config

/-- What a configuration has for the strategy, when it counts as true. -/
def strategy? (config : Config) : Option Datum :=
  (Datum.lookupText "strategy" config).filter Datum.isTrue

/-- The cap in a configuration: that of the parser goes before the general one. -/
def cap? (config : Config) : Option Datum :=
  let ofParser? : Option Datum :=
    match Datum.lookupText "parser" config with
    | some (.mapping entries) => given? entries "max_iterations"
    | _ => none
  match ofParser? with
  | some value => some value
  | none => given? config "max_iterations"

end Config

def defaultStrategyName : Text := Strategy.topDown.name

inductive StrategyFault where
  | unwritten (fault : Datum.WritingFault)
  | unknown (fault : Fault)
deriving DecidableEq

/-- The name of the strategy of a run. An empty name is no name. -/
def strategyName (given? : Option Text) (config : Config) (default : Text) :
    Except Datum.WritingFault Text :=
  match given?.filter (fun name => !name.isEmpty) with
  | some name => .ok name
  | none =>
    match config.strategy? with
    | some value => value.writtenWithin depthLimit
    | none => .ok default

def resolveStrategy (given? : Option Text) (config : Config) (default : Text) :
    Except StrategyFault Strategy := do
  let name ← (strategyName given? config default).mapError StrategyFault.unwritten
  (Strategy.ofName name).mapError StrategyFault.unknown

/-- The cap of a run; none lets the parser size it. -/
def resolveCap (given? : Option Datum) (config : Config) :
    Except Datum.IntegerFault (Option Int) :=
  match given? with
  | some value => return some (← value.toInteger)
  | none =>
    match config.cap? with
    | some value => return some (← value.toInteger)
    | none => return none

def resolveFlag (given? : Option Datum) (config : Config) (key : Text) (default : Bool) : Bool :=
  match given? with
  | some value => value.isTrue
  | none => ((config.given? key).map Datum.isTrue).getD default

end Reckon
