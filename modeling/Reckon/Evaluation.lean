import Reckon.Double.Arithmetic
import Reckon.Tree

/-!
# Evaluation

The value of a tree, plain or with a trace. A node is evaluated after its children, from left to
right, and the first node that fails settles the outcome; a node below the depth limit fails. A
trace has one line for each number and two for each operation, indented by two spaces a level.
-/

set_option autoImplicit false

namespace Reckon.Evaluation

def leaf (value : Double) : Except EvaluationCause Double :=
  if value.isFinite then .ok value else .error (.unboundedLeaf value.text)

def applySign (operator : Text) (value : Double) : Except EvaluationCause Double :=
  if operator == "+" then .ok value
  else if operator == "-" then .ok (-value)
  else .error (.unknownSign operator)

def bounded (operation : String) (result : Double) : Except EvaluationCause Double :=
  if result.isFinite then .ok result else .error (.overflow operation)

/-- An operation on two finite values. -/
def applyOperator (operator : Text) (left right : Double) : Except EvaluationCause Double :=
  if operator == "+" then bounded "Addition" (left + right)
  else if operator == "-" then bounded "Subtraction" (left - right)
  else if operator == "*" then bounded "Multiplication" (left * right)
  else if operator == "/" then
    if right.isZero then .error .zeroDivisor else bounded "Division" (left / right)
  else .error (.unknownOperator operator)

/-- An operation on the values of its operands, which must be finite. -/
def combine (operator : Text) (left right : Double) : Except EvaluationCause Double :=
  if left.isFinite && right.isFinite then applyOperator operator left right
  else .error .unboundedOperand

/-- The value of a tree that stands at a level. -/
def valueAt (level : Nat) (tree : Tree Text) : Except EvaluationCause Double :=
  if depthLimit ≤ level then .error .tooDeep
  else
    match tree with
    | .number value => leaf value
    | .unary operator operand => do
      applySign operator (← valueAt (level + 1) operand)
    | .binary operator left right => do
      let leftValue ← valueAt (level + 1) left
      let rightValue ← valueAt (level + 1) right
      combine operator leftValue rightValue
    | .foreign typeName => .error (.strangeNode typeName)

def value (tree : Tree Text) : Except Fault Double :=
  (valueAt 0 tree).mapError .evaluation

/-- A value with the lines that tell how it came about. -/
structure Trace where
  result : Double
  lines : List Text
deriving DecidableEq

def line (level : Nat) (text : Text) : Text :=
  Tree.indentation level ++ text

/-- The trace of a tree that stands at a level. -/
def traceAt (level : Nat) (tree : Tree Text) : Except EvaluationCause Trace :=
  if depthLimit ≤ level then .error .tooDeep
  else
    match tree with
    | .number value => do
      let result ← leaf value
      return ⟨result, [line level ("Evaluating Number: " ++ value.display)]⟩
    | .unary operator operand => do
      let inner ← traceAt (level + 1) operand
      let result ← applySign operator inner.result
      let last := "Result: " ++ operator ++ inner.result.display ++ " = " ++ result.display
      return ⟨result,
        line level ("Evaluating UnaryOp: " ++ operator) :: (inner.lines ++ [line level last])⟩
    | .binary operator left right => do
      let leftTrace ← traceAt (level + 1) left
      let rightTrace ← traceAt (level + 1) right
      let result ← combine operator leftTrace.result rightTrace.result
      let last :=
        "Result: " ++ leftTrace.result.display ++ " " ++ operator ++ " "
          ++ rightTrace.result.display ++ " = " ++ result.display
      return ⟨result,
        line level ("Evaluating BinaryOp: " ++ operator)
          :: (leftTrace.lines ++ (rightTrace.lines ++ [line level last]))⟩
    | .foreign typeName => .error (.strangeNode typeName)

def trace (tree : Tree Text) : Except Fault Trace :=
  (traceAt 0 tree).mapError .evaluation

end Reckon.Evaluation
