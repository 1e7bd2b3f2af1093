import Reckon.Interpretation

/-!
# Comparing the strategies

Both strategies on one expression, and on a batch of them. A comparison says whether the trees and
the values are the same; the strategies agree when both succeed with the same tree and value, or
when both fail in the same stage, where an evaluator's failures must come from the same tree. How
the rates of a batch are averaged is a parameter.
-/

set_option autoImplicit false

namespace Reckon

/-- Whether two strategies agree that failed in the given stages, when each failed at all. -/
def failuresAgree (sameTree : Bool) : Option Category → Option Category → Bool
  | some topDown, some bottomUp =>
    topDown == bottomUp && (topDown != .evaluator || sameTree)
  | _, _ => false

structure Comparison where
  expression : Text
  sameTree : Bool
  sameResult : Bool
  topDownResult : Option Double
  bottomUpResult : Option Double
  topDownSteps : Nat
  bottomUpSteps : Nat
  /-- The failures by the name of the strategy that failed. -/
  failures : List (String × Failure)

namespace Comparison

def failed (comparison : Comparison) : Bool :=
  !comparison.failures.isEmpty

def failureOf? (comparison : Comparison) (strategy : Strategy) : Option Failure :=
  comparison.failures.lookup strategy.name

def agree (comparison : Comparison) : Bool :=
  if comparison.failed then
    failuresAgree comparison.sameTree ((comparison.failureOf? .topDown).map Failure.category)
      ((comparison.failureOf? .bottomUp).map Failure.category)
  else comparison.sameTree && comparison.sameResult

/-- Whether two results are the same, signs of zeros included. A missing result is the same as a
missing one only. -/
def sameValue : Option Double → Option Double → Bool
  | none, none => true
  | some left, some right => left.same right && left.isNegative == right.isNegative
  | _, _ => false

/-- What one strategy made of the tokens of an expression: what it parsed, the value, and what
failed about the source. Other faults are let through. -/
structure Attempt where
  parsed : Option Parsed
  result : Option Double
  failure : Option Failure

def failureOf (expression : Text) (fault : Fault) : Except Fault Failure :=
  match fault.diagnosis? with
  | some diagnosis => .ok (diagnosis.failure expression)
  | none => .error fault

def attempt (expression : Text) (tokens : List Token) (cap? : Option Int) (strategy : Strategy) :
    Except Fault Attempt :=
  match strategy.parse tokens cap? with
  | .error fault => do return ⟨none, none, some (← failureOf expression fault)⟩
  | .ok parsed =>
    match Evaluation.value parsed.tree with
    | .error fault => do return ⟨some parsed, none, some (← failureOf expression fault)⟩
    | .ok result => .ok ⟨some parsed, some result, none⟩

def attemptsSameTree (topDown bottomUp : Attempt) : Except Fault Bool :=
  match topDown.parsed, bottomUp.parsed with
  | some left, some right => left.tree.same right.tree
  | _, _ => .ok false

/-- How many steps an attempt took to parse; none when it did not. -/
def Attempt.stepCount (attempt : Attempt) : Nat :=
  (attempt.parsed.map fun parsed => parsed.steps.length).getD 0

def Attempt.named (attempt : Attempt) (strategy : Strategy) : List (String × Failure) :=
  attempt.failure.toList.map fun failure => (strategy.name, failure)

def ofLexicalFailure (expression : Text) (failure : Failure) : Comparison :=
  { expression := expression
    sameTree := false
    sameResult := false
    topDownResult := none
    bottomUpResult := none
    topDownSteps := 0
    bottomUpSteps := 0
    failures := Strategy.all.map fun strategy => (strategy.name, failure) }

def ofAttempts (expression : Text) (topDown bottomUp : Attempt) : Except Fault Comparison := do
  let sameTree ← attemptsSameTree topDown bottomUp
  return {
    expression := expression
    sameTree := sameTree
    sameResult :=
      topDown.result.isSome && bottomUp.result.isSome && sameValue topDown.result bottomUp.result
    topDownResult := topDown.result
    bottomUpResult := bottomUp.result
    topDownSteps := topDown.stepCount
    bottomUpSteps := bottomUp.stepCount
    failures := topDown.named .topDown ++ bottomUp.named .bottomUp }

end Comparison

def compareStrategies (expression : Text) (cap? : Option Int) : Except Fault Comparison :=
  match Token.tokenize expression with
  | .error fault => do
    return .ofLexicalFailure expression (← Comparison.failureOf expression fault)
  | .ok tokens => do
    let topDown ← Comparison.attempt expression tokens cap? .topDown
    let bottomUp ← Comparison.attempt expression tokens cap? .bottomUp
    Comparison.ofAttempts expression topDown bottomUp

/-- How answers and counts are averaged. -/
structure Averages where
  ofAnswers : List Bool → Double
  ofCounts : List Nat → Double

namespace Averages

/-- The average of equal answers is that answer, as a one or a zero. -/
def KeepsAnswers (averages : Averages) : Prop :=
  ∀ (answer : Bool) (count : Nat), 0 < count →
    averages.ofAnswers (List.replicate count answer) = .ofInt answer.toInt

/-- The averages that are rounded once, from the exact quotient. -/
def nearest : Averages where
  ofAnswers answers := .ofRatio (answers.count true) answers.length
  ofCounts counts := .ofRatio (counts.foldl (· + ·) 0) counts.length

end Averages

structure Batch where
  rows : List Comparison

namespace Batch

def total (batch : Batch) : Nat :=
  batch.rows.length

def disagreements (batch : Batch) : List Comparison :=
  batch.rows.filter fun row => !row.agree

variable (batch : Batch) (averages : Averages)

/-- The average of an answer over the rows, and zero for no rows. -/
def rate (holds : Comparison → Bool) : Double :=
  let answers := batch.rows.map holds
  if answers.isEmpty then .zero false else averages.ofAnswers answers

/-- The average of the counts that are not zero, and zero when there are none. -/
def meanSteps (count : Comparison → Nat) : Double :=
  let counts := (batch.rows.map count).filter (0 < ·)
  if counts.isEmpty then .zero false else averages.ofCounts counts

def agreementRate : Double :=
  batch.rate averages Comparison.agree

def errorRate : Double :=
  batch.rate averages Comparison.failed

/-- The mean number of steps of a strategy over the expressions it parses. -/
def meanStepsOf : Strategy → Double
  | .topDown => batch.meanSteps averages Comparison.topDownSteps
  | .bottomUp => batch.meanSteps averages Comparison.bottomUpSteps

end Batch

def compareBatch (expressions : List Text) (cap? : Option Int) : Except Fault Batch := do
  return ⟨← expressions.mapM fun expression => compareStrategies expression cap?⟩

end Reckon
