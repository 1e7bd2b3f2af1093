import Reckon.Proofs.Evaluations
import Reckon.Proofs.Nodes

/-!
# The first node that fails

What the value of a tree is, by rules, and how a node fails by itself when its operands have values.
The evaluation of a tree that a walk can visit comes to the value that the rules give. If they give
none, it reports the first node that fails by itself: from left to right, operands before their
operation.
-/

set_option autoImplicit false

namespace Reckon.Evaluation

/-- The operations on one value. -/
def signs : List (Text × (Double → Double)) :=
  [("+", id), ("-", Neg.neg)]

/-- The operations on two values, with the names under which their results overflow. -/
def operators : List (Text × String × (Double → Double → Double)) :=
  [("+", "Addition", (· + ·)), ("-", "Subtraction", (· - ·)), ("*", "Multiplication", (· * ·)),
    ("/", "Division", (· / ·))]

/-- A division by what equals zero, of either sign. -/
def DividesByZero (operator : Text) (divisor : Double) : Prop :=
  operator = "/" ∧ divisor.same (.zero false) = true

inductive HasValue : Tree Text → Double → Prop where
  | number {value : Double} : value.isFinite = true → HasValue (.number value) value
  | unary {operator : Text} {operand : Tree Text} {inner : Double} {compute : Double → Double} :
      HasValue operand inner → signs.lookup operator = some compute →
      HasValue (.unary operator operand) (compute inner)
  | binary {operator : Text} {left right : Tree Text} {leftValue rightValue : Double}
      {name : String} {compute : Double → Double → Double} :
      HasValue left leftValue → HasValue right rightValue →
      operators.lookup operator = some (name, compute) → ¬ DividesByZero operator rightValue →
      (compute leftValue rightValue).isFinite = true →
      HasValue (.binary operator left right) (compute leftValue rightValue)

/-- A node fails though its operands have values. -/
inductive FailsAlone : Tree Text → EvaluationCause → Prop where
  | number {value : Double} :
      value.isFinite = false → FailsAlone (.number value) (.unboundedLeaf value.text)
  | foreign {typeName : String} : FailsAlone (.foreign typeName) (.strangeNode typeName)
  | sign {operator : Text} {operand : Tree Text} {inner : Double} :
      HasValue operand inner → signs.lookup operator = none →
      FailsAlone (.unary operator operand) (.unknownSign operator)
  | operator {operator : Text} {left right : Tree Text} {leftValue rightValue : Double} :
      HasValue left leftValue → HasValue right rightValue → operators.lookup operator = none →
      FailsAlone (.binary operator left right) (.unknownOperator operator)
  | divisor {operator : Text} {left right : Tree Text} {leftValue rightValue : Double} :
      HasValue left leftValue → HasValue right rightValue → DividesByZero operator rightValue →
      FailsAlone (.binary operator left right) .zeroDivisor
  | overflow {operator : Text} {left right : Tree Text} {leftValue rightValue : Double}
      {name : String} {compute : Double → Double → Double} :
      HasValue left leftValue → HasValue right rightValue →
      operators.lookup operator = some (name, compute) → ¬ DividesByZero operator rightValue →
      (compute leftValue rightValue).isFinite = false →
      FailsAlone (.binary operator left right) (.overflow name)

def NoneFails (nodes : List (Nat × Tree Text)) : Prop :=
  ∀ node ∈ nodes, ∀ cause, ¬ FailsAlone node.2 cause

/-- A node fails by itself, and no node before it does. -/
def FailsFirst (nodes : List (Nat × Tree Text)) (cause : EvaluationCause) : Prop :=
  ∃ before node after, nodes = before ++ node :: after ∧ FailsAlone node.2 cause ∧
    NoneFails before

section Operations

theorem applySign_eq (operator : Text) (value : Double) :
    applySign operator value =
      match signs.lookup operator with
      | some compute => .ok (compute value)
      | none => .error (.unknownSign operator) := by
  by_cases plus : operator = "+"
  · subst plus
    rfl
  by_cases minus : operator = "-"
  · subst minus
    rfl
  simp [applySign, signs, List.lookup_cons, beq_false_of_ne plus, beq_false_of_ne minus]

theorem DividesByZero.lookup_eq {operator : Text} {divisor : Double}
    (divides : DividesByZero operator divisor) :
    operators.lookup operator = some ("Division", (· / ·)) := by
  obtain ⟨rfl, -⟩ := divides
  rfl

theorem same_zero (value : Double) : value.same (.zero false) = value.isZero := by
  cases value with
  | nan => rfl
  | infinite negative => cases negative <;> rfl
  | finite negative code =>
      change (code.val == 0 && true || Double.finite negative code == .zero false) =
        (code.val == 0)
      cases none : code.val == 0 with
      | true => rfl
      | false =>
          refine beq_false_of_ne fun same => ?_
          cases same
          cases none

instance (operator : Text) (divisor : Double) : Decidable (DividesByZero operator divisor) :=
  inferInstanceAs (Decidable (_ ∧ _))

theorem combine_eq {left right : Double} (leftFinite : left.isFinite = true)
    (rightFinite : right.isFinite = true) (operator : Text) :
    combine operator left right =
      match operators.lookup operator with
      | some (name, compute) =>
        if DividesByZero operator right then .error .zeroDivisor
        else bounded name (compute left right)
      | none => .error (.unknownOperator operator) := by
  rw [combine, leftFinite, rightFinite, Bool.and_true, if_pos rfl]
  by_cases plus : operator = "+"
  · subst plus
    rfl
  by_cases minus : operator = "-"
  · subst minus
    rfl
  by_cases star : operator = "*"
  · subst star
    rfl
  by_cases slash : operator = "/"
  · subst slash
    change (if right.isZero then _ else _) = if DividesByZero "/" right then _ else _
    simp only [DividesByZero, same_zero, true_and]
  simp [applyOperator, operators, List.lookup_cons, beq_false_of_ne plus, beq_false_of_ne minus,
    beq_false_of_ne star, beq_false_of_ne slash]

/-- A sign of the language keeps a value finite. -/
theorem isFinite_of_signs {operator : Text} {compute : Double → Double}
    (found : signs.lookup operator = some compute) {value : Double}
    (finite : value.isFinite = true) : (compute value).isFinite = true := by
  have applied := applySign_eq operator value
  rw [found] at applied
  unfold applySign at applied
  split_ifs at applied
  · rw [← Except.ok.inj applied]
    exact finite
  · rw [← Except.ok.inj applied]
    exact isFinite_neg finite

end Operations

section Values

variable {tree : Tree Text} {value other : Double} {cause otherCause : EvaluationCause}

theorem HasValue.isFinite (hasValue : HasValue tree value) : value.isFinite = true := by
  induction hasValue with
  | number finite => exact finite
  | unary _ found ih => exact isFinite_of_signs found ih
  | binary _ _ _ _ finite _ _ => exact finite

theorem HasValue.unique (hasValue : HasValue tree value) (hasOther : HasValue tree other) :
    value = other := by
  induction hasValue generalizing other with
  | number _ =>
      cases hasOther
      rfl
  | unary _ found ih =>
      cases hasOther with
      | unary otherOperand otherFound =>
          obtain rfl := ih otherOperand
          obtain rfl := Option.some.inj (found.symm.trans otherFound)
          rfl
  | binary _ _ found _ _ leftIH rightIH =>
      cases hasOther with
      | binary otherLeft otherRight otherFound _ _ =>
          obtain rfl := leftIH otherLeft
          obtain rfl := rightIH otherRight
          cases found.symm.trans otherFound
          rfl

theorem HasValue.not_failsAlone (hasValue : HasValue tree value) : ¬ FailsAlone tree cause := by
  intro fails
  cases hasValue with
  | number finite =>
      cases fails with
      | number infinite => exact Bool.false_ne_true (infinite.symm.trans finite)
  | unary _ found =>
      cases fails with
      | sign _ missing => cases found.symm.trans missing
  | binary left right found spared finite =>
      cases fails with
      | operator _ _ missing => cases found.symm.trans missing
      | divisor _ failedRight divides =>
          obtain rfl := right.unique failedRight
          exact spared divides
      | overflow failedLeft failedRight foundToo _ infinite =>
          obtain rfl := left.unique failedLeft
          obtain rfl := right.unique failedRight
          cases found.symm.trans foundToo
          exact Bool.false_ne_true (infinite.symm.trans finite)

theorem FailsAlone.unique (fails : FailsAlone tree cause) (failsToo : FailsAlone tree otherCause) :
    cause = otherCause := by
  cases fails with
  | number _ =>
      cases failsToo
      rfl
  | foreign =>
      cases failsToo
      rfl
  | sign _ _ =>
      cases failsToo
      rfl
  | operator _ _ missing =>
      cases failsToo with
      | operator _ _ _ => rfl
      | divisor _ _ divides => cases divides.lookup_eq.symm.trans missing
      | overflow _ _ found _ _ => cases found.symm.trans missing
  | divisor _ right divides =>
      cases failsToo with
      | operator _ _ missing => cases divides.lookup_eq.symm.trans missing
      | divisor _ _ _ => rfl
      | overflow _ rightToo _ spared _ =>
          obtain rfl := right.unique rightToo
          exact absurd divides spared
  | overflow left right found spared _ =>
      cases failsToo with
      | operator _ _ missing => cases found.symm.trans missing
      | divisor _ rightToo divides =>
          obtain rfl := right.unique rightToo
          exact absurd divides spared
      | overflow _ _ foundToo _ _ =>
          cases found.symm.trans foundToo
          rfl

end Values

section First

variable {nodes front rest : List (Nat × Tree Text)} {cause otherCause : EvaluationCause}

theorem HasValue.noneFails_root {tree : Tree Text} {value : Double}
    (hasValue : HasValue tree value) (level : Nat) : NoneFails [(level, tree)] := by
  intro node member cause
  obtain rfl := List.mem_singleton.mp member
  exact hasValue.not_failsAlone

theorem NoneFails.append (noneInFront : NoneFails front) (noneInRest : NoneFails rest) :
    NoneFails (front ++ rest) := by
  intro node member
  rcases List.mem_append.mp member with inFront | inRest
  · exact noneInFront node inFront
  · exact noneInRest node inRest

theorem HasValue.noneFails {tree : Tree Text} {value : Double} (hasValue : HasValue tree value)
    (level : Nat) : NoneFails (tree.nodesFrom level) := by
  induction hasValue generalizing level with
  | number finite => exact (HasValue.number finite).noneFails_root level
  | unary operand found ih =>
      exact (ih (level + 1)).append ((HasValue.unary operand found).noneFails_root level)
  | binary left right found spared finite leftIH rightIH =>
      have root := (HasValue.binary left right found spared finite).noneFails_root level
      exact (leftIH (level + 1)).append ((rightIH (level + 1)).append root)

theorem FailsFirst.append_right (first : FailsFirst nodes cause) (rest : List (Nat × Tree Text)) :
    FailsFirst (nodes ++ rest) cause := by
  obtain ⟨before, node, after, rfl, fails, noneBefore⟩ := first
  exact ⟨before, node, after ++ rest, by simp, fails, noneBefore⟩

theorem FailsFirst.append_left (first : FailsFirst nodes cause) (noneInFront : NoneFails front) :
    FailsFirst (front ++ nodes) cause := by
  obtain ⟨before, node, after, rfl, fails, noneBefore⟩ := first
  exact ⟨front ++ before, node, after, by simp, fails, noneInFront.append noneBefore⟩

theorem NoneFails.not_failsFirst (none : NoneFails nodes) : ¬ FailsFirst nodes cause := by
  rintro ⟨before, node, after, rfl, fails, -⟩
  exact none node (by simp) cause fails

/-- The node that fails first is one node, and it fails in one way. -/
theorem FailsFirst.unique (first : FailsFirst nodes cause) (firstToo : FailsFirst nodes otherCause) :
    cause = otherCause := by
  obtain ⟨before, node, after, rfl, fails, noneBefore⟩ := first
  obtain ⟨beforeToo, nodeToo, afterToo, same, failsToo, noneBeforeToo⟩ := firstToo
  -- If one of the two stood in front of the other, it would be among the nodes that do not fail.
  rcases List.append_eq_append_iff.mp same with ⟨between, rfl, behind⟩ | ⟨between, rfl, behind⟩
  · cases between with
    | nil =>
        cases behind
        exact fails.unique failsToo
    | cons first between =>
        cases behind
        exact absurd fails (noneBeforeToo node (by simp) cause)
  · cases between with
    | nil =>
        cases behind
        exact fails.unique failsToo
    | cons first between =>
        cases behind
        exact absurd failsToo (noneBefore nodeToo (by simp) otherCause)

end First

/-- What comes of a node whose operands have values: a value, or a failure of its own. -/
def Settles (tree : Tree Text) : Except EvaluationCause Double → Prop
  | .ok value => HasValue tree value
  | .error cause => FailsAlone tree cause

section Settling

variable {operator : Text} {operand left right : Tree Text} {inner leftValue rightValue : Double}

theorem leaf_settles (value : Double) : Settles (.number value) (leaf value) := by
  unfold leaf
  split_ifs with finite
  · exact .number finite
  · exact .number (Bool.not_eq_true _ ▸ finite)

theorem applySign_settles (operandValue : HasValue operand inner) (operator : Text) :
    Settles (.unary operator operand) (applySign operator inner) := by
  rw [applySign_eq]
  cases found : signs.lookup operator with
  | none => exact .sign operandValue found
  | some compute => exact .unary operandValue found

theorem combine_settles (hasLeft : HasValue left leftValue) (hasRight : HasValue right rightValue)
    (operator : Text) :
    Settles (.binary operator left right) (combine operator leftValue rightValue) := by
  rw [combine_eq hasLeft.isFinite hasRight.isFinite]
  cases found : operators.lookup operator with
  | none => exact .operator hasLeft hasRight found
  | some operation =>
      obtain ⟨name, compute⟩ := operation
      by_cases divides : DividesByZero operator rightValue
      · simp only [if_pos divides]
        exact .divisor hasLeft hasRight divides
      · simp only [if_neg divides, bounded]
        split_ifs with finite
        · exact .binary hasLeft hasRight found divides finite
        · exact .overflow hasLeft hasRight found divides (Bool.not_eq_true _ ▸ finite)

end Settling

/-- What comes of a tree with the given nodes: a value, or the first failure among the nodes. -/
def Answers (tree : Tree Text) (nodes : List (Nat × Tree Text)) :
    Except EvaluationCause Double → Prop
  | .ok value => HasValue tree value
  | .error cause => FailsFirst nodes cause

section Answering

variable {tree operand : Tree Text} {nodes front rest : List (Nat × Tree Text)}
  {outcome : Except EvaluationCause Double} {next : Double → Except EvaluationCause Double}

theorem Settles.answers (settles : Settles tree outcome) (level : Nat) :
    Answers tree [(level, tree)] outcome := by
  cases outcome with
  | ok value => exact settles
  | error cause => exact ⟨[], (level, tree), [], rfl, settles, nofun⟩

theorem Answers.behind (answers : Answers tree nodes outcome) (none : NoneFails front) :
    Answers tree (front ++ nodes) outcome := by
  cases outcome with
  | ok value => exact answers
  | error cause => exact FailsFirst.append_left answers none

/-- An operand that fails settles its operation, and one with a value lets the walk go on. -/
theorem Answers.bind (answers : Answers operand nodes outcome)
    (goesOn : ∀ value, HasValue operand value → Answers tree (nodes ++ rest) (next value)) :
    Answers tree (nodes ++ rest) (outcome >>= next) := by
  cases outcome with
  | ok value => exact goesOn value answers
  | error cause => exact FailsFirst.append_right answers rest

end Answering

theorem valueAt_answers {tree : Tree Text} (level : Nat)
    (fits : level + tree.depth ≤ depthLimit) :
    Answers tree (tree.nodesFrom level) (valueAt level tree) := by
  induction tree generalizing level with
  | number value =>
      rw [valueAt_number fits]
      exact (leaf_settles value).answers level
  | foreign typeName =>
      rw [valueAt_foreign fits]
      exact ⟨[], (level, .foreign typeName), [], rfl, .foreign, nofun⟩
  | unary operator operand ih =>
      simp only [Tree.depth] at fits
      rw [valueAt_unary (by omega)]
      refine (ih (level + 1) (by omega)).bind fun inner hasInner => ?_
      exact ((applySign_settles hasInner operator).answers level).behind (hasInner.noneFails _)
  | binary operator left right leftIH rightIH =>
      simp only [Tree.depth] at fits
      rw [valueAt_binary (by omega)]
      refine (leftIH (level + 1) (by omega)).bind fun leftValue hasLeft => ?_
      refine Answers.behind ?_ (hasLeft.noneFails (level + 1))
      refine (rightIH (level + 1) (by omega)).bind fun rightValue hasRight => ?_
      have settles := combine_settles hasLeft hasRight operator
      exact (settles.answers level).behind (hasRight.noneFails _)

section Shallow

variable {tree : Tree Text} (shallow : tree.depth ≤ depthLimit)
include shallow

theorem value_eq_ok_iff {result : Double} : value tree = .ok result ↔ HasValue tree result := by
  have answers := valueAt_answers 0 (by omega : 0 + tree.depth ≤ depthLimit)
  unfold value
  cases outcome : valueAt 0 tree with
  | ok found =>
      rw [outcome] at answers
      have hasFound : HasValue tree found := answers
      constructor
      · rintro ⟨⟩
        exact hasFound
      · intro hasResult
        obtain rfl := hasFound.unique hasResult
        rfl
  | error cause =>
      rw [outcome] at answers
      refine iff_of_false nofun fun hasResult => ?_
      exact (hasResult.noneFails 0).not_failsFirst answers

theorem value_eq_error_iff {fault : Fault} :
    value tree = .error fault ↔
      ∃ cause, fault = .evaluation cause ∧ FailsFirst (tree.nodesFrom 0) cause := by
  have answers := valueAt_answers 0 (by omega : 0 + tree.depth ≤ depthLimit)
  unfold value
  cases outcome : valueAt 0 tree with
  | ok found =>
      rw [outcome] at answers
      have hasFound : HasValue tree found := answers
      refine iff_of_false nofun ?_
      rintro ⟨cause, -, first⟩
      exact (hasFound.noneFails 0).not_failsFirst first
  | error cause =>
      rw [outcome] at answers
      have first : FailsFirst (tree.nodesFrom 0) cause := answers
      constructor
      · rintro ⟨⟩
        exact ⟨cause, rfl, first⟩
      · rintro ⟨other, rfl, firstToo⟩
        obtain rfl := first.unique firstToo
        rfl

end Shallow

/-- A tree that a walk can visit evaluates to the value that the rules give, which is finite, or to
the failure of the first of its nodes that fails by itself. No operation is ever tried on an operand
that is not finite. -/
theorem evaluation_stops_at_first_failure {tree : Tree Text} (shallow : tree.depth ≤ depthLimit) :
    (∀ result, value tree = .ok result ↔ HasValue tree result) ∧
      (∀ result, value tree = .ok result → result.isFinite = true) ∧
      (∀ fault, value tree = .error fault ↔
        ∃ cause, fault = .evaluation cause ∧ FailsFirst (tree.nodesFrom 0) cause) ∧
      value tree ≠ .error (.evaluation .unboundedOperand) := by
  refine ⟨fun _ => value_eq_ok_iff shallow, ?_, fun _ => value_eq_error_iff shallow, ?_⟩
  · intro result done
    exact ((value_eq_ok_iff shallow).mp done).isFinite
  · intro failed
    obtain ⟨cause, isCause, _, ⟨_, node⟩, _, -, fails, -⟩ := (value_eq_error_iff shallow).mp failed
    cases isCause
    cases fails

/-- One divided by a negative zero, plus an object that is no node. -/
def brokenSum : Tree Text :=
  .binary "+" (.binary "/" (.number (.ofInt 1)) (.unary "-" (.number (.zero false))))
    (.foreign "NoneType")

theorem brokenSum_stops_at_its_divisor :
    brokenSum.depth ≤ depthLimit ∧ value brokenSum = .error (.evaluation .zeroDivisor) ∧
      FailsFirst (brokenSum.nodesFrom 0) .zeroDivisor := by
  have shallow : brokenSum.depth ≤ depthLimit := by decide
  have failed : value brokenSum = .error (.evaluation .zeroDivisor) := by decide +kernel
  obtain ⟨-, -, failure, -⟩ := evaluation_stops_at_first_failure shallow
  obtain ⟨cause, isCause, first⟩ := (failure _).mp failed
  cases isCause
  exact ⟨shallow, failed, first⟩

end Reckon.Evaluation
