import Reckon.Tree

/-!
# The nodes of a tree

The nodes of a tree from left to right, in the order in which a walk finishes them, where a node
stands after its children, and in the order in which it comes to them, where it stands in front of
them. Each comes with the level at which it stands.
-/

set_option autoImplicit false

namespace Reckon.Tree

variable {ω : Type}

def nodesFrom (level : Nat) : Tree ω → List (Nat × Tree ω)
  | .number value => [(level, .number value)]
  | .unary operator operand => operand.nodesFrom (level + 1) ++ [(level, .unary operator operand)]
  | .binary operator left right =>
    left.nodesFrom (level + 1)
      ++ (right.nodesFrom (level + 1) ++ [(level, .binary operator left right)])
  | .foreign typeName => [(level, .foreign typeName)]

def preorderFrom (level : Nat) : Tree ω → List (Nat × Tree ω)
  | .number value => [(level, .number value)]
  | .unary operator operand => (level, .unary operator operand) :: operand.preorderFrom (level + 1)
  | .binary operator left right =>
    (level, .binary operator left right)
      :: (left.preorderFrom (level + 1) ++ right.preorderFrom (level + 1))
  | .foreign typeName => [(level, .foreign typeName)]

def isNumber : Tree ω → Bool
  | .number _ => true
  | _ => false

def isOperation : Tree ω → Bool
  | .unary _ _ | .binary _ _ _ => true
  | _ => false

theorem depth_pos (tree : Tree ω) : 0 < tree.depth := by
  cases tree <;> simp only [depth] <;> omega

theorem depth_unary_le_iff {levels : Nat} {operator : ω} {operand : Tree ω} :
    (unary operator operand).depth ≤ levels + 1 ↔ operand.depth ≤ levels := by
  simp only [depth]
  omega

theorem depth_binary_le_iff {levels : Nat} {operator : ω} {left right : Tree ω} :
    (binary operator left right).depth ≤ levels + 1 ↔
      left.depth ≤ levels ∧ right.depth ≤ levels := by
  simp only [depth]
  omega

/-- What stands in a tree reaches no deeper than the tree does. -/
theorem depth_le_of_mem_nodesFrom {tree : Tree ω} {level : Nat} {node : Nat × Tree ω}
    (member : node ∈ tree.nodesFrom level) : node.1 + node.2.depth ≤ level + tree.depth := by
  induction tree generalizing level with
  | number value =>
      obtain rfl := List.mem_singleton.mp member
      exact Nat.le_refl _
  | foreign typeName =>
      obtain rfl := List.mem_singleton.mp member
      exact Nat.le_refl _
  | unary operator operand ih =>
      rw [nodesFrom, List.mem_append, List.mem_singleton] at member
      rcases member with inOperand | rfl
      · have below := ih inOperand
        simp only [depth]
        omega
      · exact Nat.le_refl _
  | binary operator left right leftIH rightIH =>
      simp only [nodesFrom, List.mem_append, List.mem_singleton] at member
      rcases member with inLeft | inRight | rfl
      · have below := leftIH inLeft
        simp only [depth]
        omega
      · have below := rightIH inRight
        simp only [depth]
        omega
      · exact Nat.le_refl _

end Reckon.Tree
