import Mathlib.Tactic.SplitIfs
import Reckon.Evaluation
import Reckon.Proofs.Nodes
import Reckon.Proofs.Runs

/-!
# Evaluating legal trees

The trees that parsers build have finite leaves and known operators only. Their evaluation stays
within the finite doubles; what can go wrong is a division by zero, a result beyond the finite
doubles, or a tree deeper than a walk can go.
-/

set_option autoImplicit false

namespace Reckon

/-- The trees that stand for expressions: every leaf is finite and every operator has a meaning. -/
inductive Tree.IsLegal : Tree Text → Prop where
  | number {value : Double} : value.isFinite → IsLegal (.number value)
  | unary {operator : Text} {operand : Tree Text} :
      operator = "+" ∨ operator = "-" → IsLegal operand → IsLegal (.unary operator operand)
  | binary {operator : Text} {left right : Tree Text} :
      operator = "+" ∨ operator = "-" ∨ operator = "*" ∨ operator = "/" →
      IsLegal left → IsLegal right → IsLegal (.binary operator left right)

/-- The causes of defensive checks, which no legal tree should run into. -/
def EvaluationCause.isDefensive : EvaluationCause → Bool
  | .unboundedLeaf _ | .unknownSign _ | .unknownOperator _ | .unboundedOperand
  | .strangeNode _ => true
  | .zeroDivisor | .overflow _ | .tooDeep => false

namespace Evaluation

theorem isFinite_neg {value : Double} (finite : value.isFinite = true) :
    (-value).isFinite = true := by
  cases value with
  | nan => cases finite
  | infinite negative => cases finite
  | finite negative code => rfl

theorem applySign_ok {operator : Text} (sign : operator = "+" ∨ operator = "-") {value : Double}
    (finite : value.isFinite = true) :
    ∃ result, applySign operator value = .ok result ∧ result.isFinite = true := by
  rcases sign with rfl | rfl
  · exact ⟨value, rfl, finite⟩
  · exact ⟨-value, rfl, isFinite_neg finite⟩

/-- What the outcome of a legal tree may be: a finite value, or a fault that is not defensive. -/
def IsForeseen (outcome : Except EvaluationCause Double) : Prop :=
  match outcome with
  | .ok value => value.isFinite = true
  | .error cause => cause.isDefensive = false

theorem IsForeseen.bind {outcome : Except EvaluationCause Double}
    {next : Double → Except EvaluationCause Double} (foreseen : IsForeseen outcome)
    (nextForeseen : ∀ value : Double, value.isFinite = true → IsForeseen (next value)) :
    IsForeseen (outcome >>= next) := by
  cases outcome with
  | error cause => exact foreseen
  | ok value => exact nextForeseen value foreseen

theorem bounded_isForeseen (operation : String) (result : Double) :
    IsForeseen (bounded operation result) := by
  cases finite : result.isFinite <;> simp [bounded, IsForeseen, finite, EvaluationCause.isDefensive]

theorem combine_isForeseen {operator : Text}
    (known : operator = "+" ∨ operator = "-" ∨ operator = "*" ∨ operator = "/")
    {left right : Double} (leftFinite : left.isFinite = true)
    (rightFinite : right.isFinite = true) : IsForeseen (combine operator left right) := by
  rw [combine, leftFinite, rightFinite, Bool.and_true, if_pos rfl]
  rcases known with rfl | rfl | rfl | rfl
  · exact bounded_isForeseen "Addition" (left + right)
  · exact bounded_isForeseen "Subtraction" (left - right)
  · exact bounded_isForeseen "Multiplication" (left * right)
  · change IsForeseen
      (if right.isZero then .error .zeroDivisor else bounded "Division" (left / right))
    cases right.isZero with
    | true => exact rfl
    | false => exact bounded_isForeseen "Division" (left / right)

theorem valueAt_of_deep {level : Nat} (deep : depthLimit ≤ level) (tree : Tree Text) :
    valueAt level tree = .error .tooDeep := by
  cases tree <;> exact if_pos deep

section Shallow

variable {level : Nat} (shallow : level < depthLimit)
include shallow

theorem valueAt_number (value : Double) : valueAt level (.number value) = leaf value :=
  if_neg (Nat.not_le.mpr shallow)

theorem valueAt_unary (operator : Text) (operand : Tree Text) :
    valueAt level (.unary operator operand) =
      (valueAt (level + 1) operand >>= applySign operator) :=
  if_neg (Nat.not_le.mpr shallow)

theorem valueAt_binary (operator : Text) (left right : Tree Text) :
    valueAt level (.binary operator left right) =
      (valueAt (level + 1) left >>= fun leftValue =>
        valueAt (level + 1) right >>= combine operator leftValue) :=
  if_neg (Nat.not_le.mpr shallow)

theorem valueAt_foreign (typeName : String) :
    valueAt level (.foreign typeName) = .error (.strangeNode typeName) :=
  if_neg (Nat.not_le.mpr shallow)

end Shallow

/-- Evaluating a legal tree runs into no defensive check. -/
theorem valueAt_isForeseen {tree : Tree Text} (legal : tree.IsLegal) (level : Nat) :
    IsForeseen (valueAt level tree) := by
  induction legal generalizing level with
  | @number value finite =>
      rcases Nat.lt_or_ge level depthLimit with shallow | deep
      · rw [valueAt_number shallow, leaf, if_pos finite]
        exact finite
      · rw [valueAt_of_deep deep]
        rfl
  | @unary operator operand sign _ ih =>
      rcases Nat.lt_or_ge level depthLimit with shallow | deep
      · rw [valueAt_unary shallow]
        refine (ih (level + 1)).bind fun value finite => ?_
        obtain ⟨result, applied, resultFinite⟩ := applySign_ok sign finite
        rw [applied]
        exact resultFinite
      · rw [valueAt_of_deep deep]
        rfl
  | @binary operator left right known _ _ leftIH rightIH =>
      rcases Nat.lt_or_ge level depthLimit with shallow | deep
      · rw [valueAt_binary shallow]
        refine (leftIH (level + 1)).bind fun leftValue leftFinite => ?_
        refine (rightIH (level + 1)).bind fun rightValue rightFinite => ?_
        exact combine_isForeseen known leftFinite rightFinite
      · rw [valueAt_of_deep deep]
        rfl

theorem level_lt_of_valueAt {tree : Tree Text} {level : Nat} {value : Double}
    (done : valueAt level tree = .ok value) : level < depthLimit := by
  rcases Nat.lt_or_ge level depthLimit with shallow | deep
  · exact shallow
  · rw [valueAt_of_deep deep] at done
    cases done

/-- A walk that comes to a value has visited every level of the tree. -/
theorem depth_le_of_valueAt {tree : Tree Text} {level : Nat} {value : Double}
    (done : valueAt level tree = .ok value) : level + tree.depth ≤ depthLimit := by
  have shallow := level_lt_of_valueAt done
  induction tree generalizing level value with
  | number _ => exact shallow
  | foreign _ => exact shallow
  | unary operator operand ih =>
      rw [valueAt_unary shallow] at done
      obtain ⟨inner, innerDone, -⟩ := except_bind_ok done
      have visited := ih innerDone (level_lt_of_valueAt innerDone)
      simp only [Tree.depth]
      omega
  | binary operator left right leftIH rightIH =>
      rw [valueAt_binary shallow] at done
      obtain ⟨leftValue, leftDone, done⟩ := except_bind_ok done
      obtain ⟨rightValue, rightDone, -⟩ := except_bind_ok done
      have leftVisited := leftIH leftDone (level_lt_of_valueAt leftDone)
      have rightVisited := rightIH rightDone (level_lt_of_valueAt rightDone)
      simp only [Tree.depth]
      omega

theorem depth_gt_of_deep {level : Nat} (deep : depthLimit ≤ level) (tree : Tree Text) :
    depthLimit < level + tree.depth := by
  have some := tree.depth_pos
  omega

theorem leaf_ne_tooDeep (value : Double) : leaf value ≠ .error .tooDeep := by
  unfold leaf
  split_ifs <;> exact nofun

theorem applySign_ne_tooDeep (operator : Text) (value : Double) :
    applySign operator value ≠ .error .tooDeep := by
  unfold applySign
  split_ifs <;> exact nofun

theorem combine_ne_tooDeep (operator : Text) (left right : Double) :
    combine operator left right ≠ .error .tooDeep := by
  unfold combine applyOperator bounded
  split_ifs <;> exact nofun

/-- A walk that fails for its depth has met a tree with more levels than it can visit. -/
theorem depth_gt_of_tooDeep {tree : Tree Text} {level : Nat}
    (failed : valueAt level tree = .error .tooDeep) : depthLimit < level + tree.depth := by
  induction tree generalizing level with
  | number value =>
      rcases Nat.lt_or_ge level depthLimit with shallow | deep
      · rw [valueAt_number shallow] at failed
        exact absurd failed (leaf_ne_tooDeep value)
      · exact depth_gt_of_deep deep _
  | foreign typeName =>
      rcases Nat.lt_or_ge level depthLimit with shallow | deep
      · rw [valueAt_foreign shallow] at failed
        cases failed
      · exact depth_gt_of_deep deep _
  | unary operator operand ih =>
      rcases Nat.lt_or_ge level depthLimit with shallow | deep
      · rw [valueAt_unary shallow] at failed
        rcases except_bind_error failed with operandFailed | ⟨value, -, applied⟩
        · have below := ih operandFailed
          simp only [Tree.depth]
          omega
        · exact absurd applied (applySign_ne_tooDeep operator value)
      · exact depth_gt_of_deep deep _
  | binary operator left right leftIH rightIH =>
      rcases Nat.lt_or_ge level depthLimit with shallow | deep
      · rw [valueAt_binary shallow] at failed
        rcases except_bind_error failed with leftFailed | ⟨leftValue, -, failed⟩
        · have below := leftIH leftFailed
          simp only [Tree.depth]
          omega
        rcases except_bind_error failed with rightFailed | ⟨rightValue, -, applied⟩
        · have below := rightIH rightFailed
          simp only [Tree.depth]
          omega
        · exact absurd applied (combine_ne_tooDeep operator leftValue rightValue)
      · exact depth_gt_of_deep deep _

theorem traceAt_of_deep {level : Nat} (deep : depthLimit ≤ level) (tree : Tree Text) :
    traceAt level tree = .error .tooDeep := by
  cases tree <;> exact if_pos deep

section Shallow

variable {level : Nat} (shallow : level < depthLimit)
include shallow

theorem traceAt_number (value : Double) :
    traceAt level (.number value) = do
      let result ← leaf value
      return ⟨result, [line level ("Evaluating Number: " ++ value.display)]⟩ :=
  if_neg (Nat.not_le.mpr shallow)

theorem traceAt_unary (operator : Text) (operand : Tree Text) :
    traceAt level (.unary operator operand) = do
      let inner ← traceAt (level + 1) operand
      let result ← applySign operator inner.result
      let last := "Result: " ++ operator ++ inner.result.display ++ " = " ++ result.display
      return ⟨result,
        line level ("Evaluating UnaryOp: " ++ operator) :: (inner.lines ++ [line level last])⟩ :=
  if_neg (Nat.not_le.mpr shallow)

theorem traceAt_binary (operator : Text) (left right : Tree Text) :
    traceAt level (.binary operator left right) = do
      let leftTrace ← traceAt (level + 1) left
      let rightTrace ← traceAt (level + 1) right
      let result ← combine operator leftTrace.result rightTrace.result
      let last :=
        "Result: " ++ leftTrace.result.display ++ " " ++ operator ++ " "
          ++ rightTrace.result.display ++ " = " ++ result.display
      return ⟨result,
        line level ("Evaluating BinaryOp: " ++ operator)
          :: (leftTrace.lines ++ (rightTrace.lines ++ [line level last]))⟩ :=
  if_neg (Nat.not_le.mpr shallow)

theorem traceAt_foreign (typeName : String) :
    traceAt level (.foreign typeName) = .error (.strangeNode typeName) :=
  if_neg (Nat.not_le.mpr shallow)

end Shallow

/-- A trace has the value that evaluation without one finds, or fails alike. -/
theorem traceAt_result (level : Nat) (tree : Tree Text) :
    (traceAt level tree).map Trace.result = valueAt level tree := by
  induction tree generalizing level with
  | number value =>
      rcases Nat.lt_or_ge level depthLimit with shallow | deep
      · rw [valueAt_number shallow, traceAt_number shallow]
        cases leaf value <;> rfl
      · rw [valueAt_of_deep deep, traceAt_of_deep deep]
        rfl
  | foreign typeName =>
      rcases Nat.lt_or_ge level depthLimit with shallow | deep
      · rw [valueAt_foreign shallow, traceAt_foreign shallow]
        rfl
      · rw [valueAt_of_deep deep, traceAt_of_deep deep]
        rfl
  | unary operator operand ih =>
      rcases Nat.lt_or_ge level depthLimit with shallow | deep
      · rw [valueAt_unary shallow, ← ih, traceAt_unary shallow]
        cases traceAt (level + 1) operand with
        | error cause => rfl
        | ok inner =>
            change Except.map Trace.result (applySign operator inner.result >>= _) =
              applySign operator inner.result
            cases applySign operator inner.result <;> rfl
      · rw [valueAt_of_deep deep, traceAt_of_deep deep]
        rfl
  | binary operator left right leftIH rightIH =>
      rcases Nat.lt_or_ge level depthLimit with shallow | deep
      · rw [valueAt_binary shallow, ← leftIH, ← rightIH, traceAt_binary shallow]
        cases traceAt (level + 1) left with
        | error cause => rfl
        | ok leftTrace =>
            cases traceAt (level + 1) right with
            | error cause => rfl
            | ok rightTrace =>
                change Except.map Trace.result
                    (combine operator leftTrace.result rightTrace.result >>= _) =
                  combine operator leftTrace.result rightTrace.result
                cases combine operator leftTrace.result rightTrace.result <;> rfl
      · rw [valueAt_of_deep deep, traceAt_of_deep deep]
        rfl

theorem trace_result (tree : Tree Text) : (trace tree).map Trace.result = value tree := by
  rw [value, ← traceAt_result, trace]
  cases traceAt 0 tree <;> rfl

theorem trace_of_value {tree : Tree Text} {result : Double} (done : value tree = .ok result) :
    ∃ traced, trace tree = .ok traced ∧ traced.result = result :=
  except_map_ok ((trace_result tree).trans done)

theorem depth_le_of_value {tree : Tree Text} {result : Double} (done : value tree = .ok result) :
    tree.depth ≤ depthLimit := by
  unfold value at done
  cases outcome : valueAt 0 tree with
  | error cause =>
      rw [outcome] at done
      cases done
  | ok found => simpa using depth_le_of_valueAt outcome

theorem value_ok_of_isLegal {tree : Tree Text} (legal : tree.IsLegal) {result : Double}
    (done : value tree = .ok result) : result.isFinite = true ∧ tree.depth ≤ depthLimit := by
  refine ⟨?_, depth_le_of_value done⟩
  have foreseen := valueAt_isForeseen legal 0
  unfold value at done
  cases outcome : valueAt 0 tree with
  | error cause =>
      rw [outcome] at done
      cases done
  | ok found =>
      rw [outcome] at done foreseen
      cases done
      exact foreseen

theorem value_error_of_isLegal {tree : Tree Text} (legal : tree.IsLegal) {fault : Fault}
    (failed : value tree = .error fault) :
    ∃ cause, fault = .evaluation cause ∧ cause.isDefensive = false ∧
      (cause = .tooDeep → depthLimit < tree.depth) := by
  have foreseen := valueAt_isForeseen legal 0
  unfold value at failed
  cases outcome : valueAt 0 tree with
  | ok found =>
      rw [outcome] at failed
      cases failed
  | error cause =>
      rw [outcome] at failed foreseen
      cases failed
      refine ⟨cause, rfl, foreseen, ?_⟩
      rintro rfl
      simpa using depth_gt_of_tooDeep outcome

end Evaluation

end Reckon
