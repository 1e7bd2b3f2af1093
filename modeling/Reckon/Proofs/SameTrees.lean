import Reckon.Evaluation
import Reckon.Proofs.Displays
import Reckon.Proofs.Nodes
import Reckon.Proofs.Runs
import Reckon.Tree.Record

/-!
# Finding trees the same

Comparing two trees by the texts of their leaves finds them the same exactly when they are one tree:
different doubles have different texts, the two zeros among them, and not-a-number is one double.
A comparison fails only where both trees are deeper than a walk can go, so it decides identity for
the trees that a walk can visit, and there nothing that is computed from a tree tells apart what the
comparison does not.
-/

set_option autoImplicit false

namespace Reckon.Tree

theorem sameLeaf_eq_true_iff {left right : Double} :
    sameLeaf left right = true ↔ left = right := by
  rw [sameLeaf, beq_iff_eq, Double.text_injective.eq_iff]

theorem both_eq_true_iff {first second : Except Fault Bool} :
    (first >>= fun answer => if answer = true then second else .ok false) = .ok true ↔
      first = .ok true ∧ second = .ok true := by
  cases first with
  | error fault => simp [bind, Except.bind]
  | ok answer => cases answer <;> simp [bind, Except.bind]

variable {ω : Type} [BEq ω] {levels : Nat} {left right : Tree ω}

/-- A walk over two trees fails only when it would go below its last level in both of them. -/
theorem callDepth_of_sameWithin {fault : Fault}
    (failed : sameWithin levels left right = .error fault) :
    fault = .callDepth ∧ levels < left.depth ∧ levels < right.depth := by
  fun_induction sameWithin levels left right with
  | case1 left right =>
      cases failed
      exact ⟨rfl, left.depth_pos, right.depth_pos⟩
  | case3 levels operator operand operator' operand' sameOperator ih =>
      obtain ⟨isDepth, below, below'⟩ := ih failed
      simp only [depth]
      exact ⟨isDepth, by omega, by omega⟩
  | case5 levels operator left right operator' left' right' sameOperator leftIH rightIH =>
      simp only [depth]
      rcases except_bind_error failed with leftFailed | ⟨answer, -, failed⟩
      · obtain ⟨isDepth, below, below'⟩ := leftIH leftFailed
        exact ⟨isDepth, by omega, by omega⟩
      · split_ifs at failed
        obtain ⟨isDepth, below, below'⟩ := rightIH failed
        exact ⟨isDepth, by omega, by omega⟩
  | case2 | case4 | case6 | case7 => cases failed

variable [LawfulBEq ω]

/-- A walk over two trees finds them the same if and only if they are one tree, made of nodes only
and with no more levels than the walk can visit. -/
theorem sameWithin_eq_true_iff :
    sameWithin levels left right = .ok true ↔
      left = right ∧ left.foreignType? = none ∧ left.depth ≤ levels := by
  fun_induction sameWithin levels left right with
  | case1 left right =>
      have some := left.depth_pos
      simp only [reduceCtorEq, false_iff]
      omega
  | case2 levels left right => simp [sameLeaf_eq_true_iff, foreignType?, depth]
  | case3 levels operator operand operator' operand' sameOperator ih =>
      obtain rfl := eq_of_beq sameOperator
      simp only [ih, foreignType?, unary.injEq, true_and, depth_unary_le_iff]
  | case4 levels operator operand operator' operand' differ =>
      have differ : operator ≠ operator' := by simpa using differ
      simp [differ]
  | case5 levels operator left right operator' left' right' sameOperator leftIH rightIH =>
      obtain rfl := eq_of_beq sameOperator
      rw [both_eq_true_iff, leftIH, rightIH]
      simp only [foreignType?, Option.or_eq_none_iff, binary.injEq, true_and, depth_binary_le_iff]
      tauto
  | case6 levels operator left right operator' left' right' differ =>
      have differ : operator ≠ operator' := by simpa using differ
      simp [differ]
  | case7 levels left right notNumbers notUnary notBinary =>
      simp only [Except.ok.injEq, Bool.false_eq_true, false_iff]
      rintro ⟨rfl, nodes, -⟩
      cases left with
      | number value => exact notNumbers _ _ rfl rfl
      | unary operator operand => exact notUnary _ _ _ _ rfl rfl
      | binary operator left right => exact notBinary _ _ _ _ _ _ rfl rfl
      | foreign typeName => cases nodes

theorem sameWithin_comm (levels : Nat) (left right : Tree ω) :
    sameWithin levels left right = sameWithin levels right left := by
  fun_induction sameWithin levels left right with
  | case1 left right => rw [sameWithin]
  | case2 levels left right => rw [sameWithin, sameLeaf, sameLeaf, BEq.comm]
  | case3 levels operator operand operator' operand' sameOperator ih =>
      rw [sameWithin, BEq.comm, if_pos sameOperator, ih]
  | case4 levels operator operand operator' operand' differ =>
      rw [sameWithin, BEq.comm, if_neg differ]
  | case5 levels operator left right operator' left' right' sameOperator leftIH rightIH =>
      rw [sameWithin, BEq.comm, if_pos sameOperator, leftIH, rightIH]
  | case6 levels operator left right operator' left' right' differ =>
      rw [sameWithin, BEq.comm, if_neg differ]
  | case7 levels left right notNumbers notUnary notBinary =>
      rw [sameWithin]
      · exact fun _ _ isRight isLeft => notNumbers _ _ isLeft isRight
      · exact fun _ _ _ _ isRight isLeft => notUnary _ _ _ _ isLeft isRight
      · exact fun _ _ _ _ _ _ isRight isLeft => notBinary _ _ _ _ _ _ isLeft isRight

theorem sameWithin_unary (operator : ω) (operand operand' : Tree ω) :
    sameWithin (levels + 1) (.unary operator operand) (.unary operator operand') =
      sameWithin levels operand operand' :=
  if_pos (beq_self_eq_true operator)

theorem sameWithin_binary (operator : ω) (left right left' right' : Tree ω) :
    sameWithin (levels + 1) (.binary operator left right) (.binary operator left' right') =
      (sameWithin levels left left' >>= fun answer =>
        if answer = true then sameWithin levels right right' else .ok false) :=
  if_pos (beq_self_eq_true operator)

/-- Comparing a tree with itself visits all of it, and finds no difference when it comes to an
end. -/
theorem sameWithin_self_eq {tree : Tree ω} (nodes : tree.foreignType? = none) (levels : Nat) :
    sameWithin levels tree tree =
      if tree.depth ≤ levels then .ok true else .error .callDepth := by
  induction levels generalizing tree with
  | zero => exact (if_neg tree.depth_pos.not_ge).symm
  | succ levels ih =>
      cases tree with
      | foreign typeName => cases nodes
      | number value =>
          have isSame : sameLeaf value value = true := sameLeaf_eq_true_iff.mpr rfl
          exact (congrArg Except.ok isSame).trans (if_pos (Nat.succ_le_succ levels.zero_le)).symm
      | unary operator operand =>
          have operandNodes : operand.foreignType? = none := nodes
          simp only [sameWithin_unary, ih operandNodes, depth_unary_le_iff]
      | binary operator left right =>
          obtain ⟨leftNodes, rightNodes⟩ := Option.or_eq_none_iff.mp nodes
          rw [sameWithin_binary, ih leftNodes, ih rightNodes]
          simp only [depth_binary_le_iff]
          by_cases leftVisited : left.depth ≤ levels <;> simp [leftVisited, bind, Except.bind]

/-- The trees that a walk can visit: made of nodes only, and no deeper than the limit. -/
def IsVisitable (tree : Tree ω) : Prop :=
  tree.foreignType? = none ∧ tree.depth ≤ depthLimit

theorem same_eq_true_iff : left.same right = .ok true ↔ left = right ∧ left.IsVisitable :=
  sameWithin_eq_true_iff

theorem same_eq_decide [DecidableEq ω] (visitable : left.IsVisitable ∨ right.IsVisitable) :
    left.same right = .ok (decide (left = right)) := by
  cases compared : left.same right with
  | error fault =>
      obtain ⟨-, leftDeep, rightDeep⟩ := callDepth_of_sameWithin compared
      rcases visitable with ⟨-, shallow⟩ | ⟨-, shallow⟩ <;> omega
  | ok answer =>
      have found : answer = true ↔ left.same right = .ok true := by simp [compared]
      have isTrue : answer = true ↔ left = right := by
        rw [found, same_eq_true_iff]
        refine ⟨And.left, fun isOne => ⟨isOne, ?_⟩⟩
        rcases visitable with visitable | visitable
        · exact visitable
        · exact isOne ▸ visitable
      rw [Except.ok.injEq, Bool.eq_iff_iff, isTrue, decide_eq_true_iff]

example : same (.number (.zero false) : Tree Text) (.number (.zero true)) = .ok false := by decide

/-- One, with ones added to it from the left. -/
def onesAdded : Nat → Tree Text
  | 0 => .number (.ofInt 1)
  | more + 1 => .binary "+" (onesAdded more) (.number (.ofInt 1))

theorem depth_onesAdded (more : Nat) : (onesAdded more).depth = 1 + more := by
  induction more with
  | zero => rfl
  | succ more ih =>
      rw [onesAdded, depth, ih, depth]
      omega

theorem foreignType?_onesAdded (more : Nat) : (onesAdded more).foreignType? = none := by
  induction more with
  | zero => rfl
  | succ more ih => exact Option.or_eq_none_iff.mpr ⟨ih, rfl⟩

end Reckon.Tree
