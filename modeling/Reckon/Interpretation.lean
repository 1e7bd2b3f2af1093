import Reckon.Evaluation
import Reckon.Parsing
import Reckon.Token.Lexer

/-!
# Interpretation

An expression from its source to its value. The stages run in order and the first one that fails
settles the outcome. `interpret` returns the fault of any stage; `interpretSafely` turns the faults
that are about the source into a failure with the expression shown, and lets others through.
-/

set_option autoImplicit false

namespace Reckon

structure Report where
  expression : Text
  strategy : Strategy
  tokens : List Token
  /-- The dump of the tree. -/
  parseTree : Text
  tree : Tree Text
  result : Double
  parsingSteps : List Step
  evaluationSteps : List Text

def interpret (expression strategyName : Text) (cap? : Option Int) : Except Fault Report := do
  let tokens ← Token.tokenize expression
  let strategy ← Strategy.ofName strategyName
  let parsed ← strategy.parse tokens cap?
  let result ← Evaluation.value parsed.tree
  let traced ← Evaluation.trace parsed.tree
  let parseTree ← parsed.tree.dump 0
  return {
    expression := expression
    strategy := parsed.strategy
    tokens := Token.withoutEnd tokens
    parseTree := parseTree
    tree := parsed.tree
    result := result
    parsingSteps := parsed.steps
    evaluationSteps := traced.lines }

structure Failure where
  category : Category
  message : Text
  position : Int
  formatted : Text
deriving DecidableEq

/-- A diagnosis about an expression, which is shown without the blanks around it. -/
def Diagnosis.failure (diagnosis : Diagnosis) (expression : Text) : Failure :=
  { category := diagnosis.category
    message := diagnosis.message
    position := diagnosis.position
    formatted := diagnosis.shown (Text.trim expression) }

/-- What came of an expression: the strategy in use, or as it was called when the expression failed,
and a report or a failure. -/
structure Outcome where
  expression : Text
  strategyName : Text
  result : Except Failure Report

/-- Interprets an expression, with faults about the source as failures. -/
def interpretSafely (expression strategyName : Text) (cap? : Option Int) :
    Except Fault Outcome :=
  match interpret expression strategyName cap? with
  | .ok report => .ok ⟨expression, report.strategy.name, .ok report⟩
  | .error fault =>
    match fault.diagnosis? with
    | some diagnosis => .ok ⟨expression, strategyName, .error (diagnosis.failure expression)⟩
    | none => .error fault

end Reckon
