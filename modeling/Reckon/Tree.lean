import Reckon.Double.Text
import Reckon.Fault

/-!
# Trees

The trees of expressions. A parser builds numbers, signed operands and binary operations; a tree
made by hand may have any operator and may hold objects that are no nodes, of which the name of
their type is known. Every walk over a tree visits at most `depthLimit` levels.
-/

set_option autoImplicit false

namespace Reckon

/-- How many levels of a tree, and how many calls inside each other, a run can visit. -/
def depthLimit : Nat := 990

/-- A tree whose operators are of one type. -/
inductive Tree (ω : Type) where
  | number (value : Double)
  | unary (operator : ω) (operand : Tree ω)
  | binary (operator : ω) (left right : Tree ω)
  | foreign (typeName : String)
deriving DecidableEq

namespace Tree

variable {ω : Type}

/-- How many levels a tree has. -/
def depth : Tree ω → Nat
  | .number _ => 1
  | .unary _ operand => 1 + operand.depth
  | .binary _ left right => 1 + max left.depth right.depth
  | .foreign _ => 1

/-- Whether a walk can visit the whole tree. -/
def checkDepth (tree : Tree ω) : Except Fault Unit :=
  if tree.depth ≤ depthLimit then .ok () else .error .callDepth

def map {ψ : Type} (change : ω → ψ) : Tree ω → Tree ψ
  | .number value => .number value
  | .unary operator operand => .unary (change operator) (operand.map change)
  | .binary operator left right => .binary (change operator) (left.map change) (right.map change)
  | .foreign typeName => .foreign typeName

/-- Two spaces for each level, and none below zero. -/
def indentation (indent : Int) : String :=
  String.ofList (List.replicate (2 * indent.toNat) ' ')

/-- The lines of the dump of a tree: one for each node, parents first, children indented by one more
level. The walk goes from left to right and fails when it would go below the given number of
levels. -/
def dumpLinesWithin : Nat → Int → Tree Text → Except Fault (List Text)
  | 0, _, _ => .error .callDepth
  | _ + 1, indent, .number value => .ok [indentation indent ++ "Number(" ++ value.display ++ ")"]
  | levels + 1, indent, .unary operator operand => do
    let operandLines ← dumpLinesWithin levels (indent + 1) operand
    return (indentation indent ++ "UnaryOp(" ++ operator ++ ")") :: operandLines
  | levels + 1, indent, .binary operator left right => do
    let leftLines ← dumpLinesWithin levels (indent + 1) left
    let rightLines ← dumpLinesWithin levels (indent + 1) right
    return (indentation indent ++ "BinaryOp(" ++ operator ++ ")") :: (leftLines ++ rightLines)
  | _ + 1, indent, .foreign _ => .ok [indentation indent ++ "Unknown node type"]

def dump (tree : Tree Text) (indent : Int) : Except Fault Text := do
  return Text.intercalate "\n" (← dumpLinesWithin depthLimit indent tree)

/-- Whether two leaves show the same text, which tells the zeros apart and no not-a-numbers. -/
def sameLeaf (left right : Double) : Bool :=
  left.text == right.text

/-- Whether two trees have the same shape, operators and leaves. The comparison goes from left to
right and stops at the first difference; it fails when it would go below the given number of
levels. Objects that are no nodes are like nothing. -/
def sameWithin [BEq ω] : Nat → Tree ω → Tree ω → Except Fault Bool
  | 0, _, _ => .error .callDepth
  | _ + 1, .number left, .number right => .ok (sameLeaf left right)
  | levels + 1, .unary operator operand, .unary operator' operand' =>
    if operator == operator' then sameWithin levels operand operand' else .ok false
  | levels + 1, .binary operator left right, .binary operator' left' right' =>
    if operator == operator' then do
      if ← sameWithin levels left left' then sameWithin levels right right' else .ok false
    else .ok false
  | _ + 1, _, _ => .ok false

/-- Whether two trees have the same shape, operators and leaves. -/
def same [BEq ω] (left right : Tree ω) : Except Fault Bool :=
  sameWithin depthLimit left right

/-- Equality by parts with the equality of arithmetic on leaves: the zeros are equal, not-a-number
equals nothing, and objects that are no nodes are equal when the names of their types are. -/
def equalWithin [BEq ω] : Nat → Tree ω → Tree ω → Except Fault Bool
  | 0, _, _ => .error .callDepth
  | _ + 1, .number left, .number right => .ok (left.same right)
  | levels + 1, .unary operator operand, .unary operator' operand' =>
    if operator == operator' then equalWithin levels operand operand' else .ok false
  | levels + 1, .binary operator left right, .binary operator' left' right' =>
    if operator == operator' then do
      if ← equalWithin levels left left' then equalWithin levels right right' else .ok false
    else .ok false
  | _ + 1, .foreign left, .foreign right => .ok (left == right)
  | _ + 1, _, _ => .ok false

def equal [BEq ω] (left right : Tree ω) : Except Fault Bool :=
  equalWithin depthLimit left right

end Tree

end Reckon
