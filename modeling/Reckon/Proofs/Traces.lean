import Reckon.Proofs.Evaluations
import Reckon.Proofs.Nodes

/-!
# What a trace tells

Tracing an evaluation does not change what comes of it. A trace is made of the traces of the
subtrees: what is told of a subtree stands in it as one block, moved in by the level of the subtree,
and an operation tells its operands between its heading and its result.
-/

set_option autoImplicit false

namespace Reckon.Evaluation

/-- Evaluating a tree with a trace comes to the same value as without, or to the same fault, which
is one of the evaluator and points at no character. -/
theorem tracing_changes_no_outcome (tree : Tree Text) :
    match value tree with
    | .ok result => ∃ traced, trace tree = .ok traced ∧ traced.result = result
    | .error fault => trace tree = .error fault ∧
        ∃ message, fault.diagnosis? = some ⟨.evaluator, message, -1⟩ := by
  cases outcome : value tree with
  | ok result => exact trace_of_value outcome
  | error fault =>
      have same := trace_result tree
      constructor
      · rw [outcome] at same
        cases traced : trace tree with
        | ok told =>
            rw [traced] at same
            cases same
        | error other =>
            rw [traced] at same
            cases same
            rfl
      · unfold value at outcome
        cases failed : valueAt 0 tree with
        | ok result =>
            rw [failed] at outcome
            cases outcome
        | error cause =>
            rw [failed] at outcome
            cases outcome
            exact ⟨cause.message, rfl⟩

section Lines

@[simp] theorem toList_line (level : Nat) (text : Text) :
    (line level text).toList = List.replicate (2 * level) (Glyph.whole ' ') ++ text.toList := by
  simp [line, Tree.indentation]

theorem line_line (outer inner : Nat) (text : Text) :
    line outer (line inner text) = line (outer + inner) text := by
  apply Text.ext
  simp only [toList_line, Nat.mul_add, ← List.replicate_append_replicate, List.append_assoc]

theorem line_comp_line_one (level : Nat) : line level ∘ line 1 = line (level + 1) :=
  funext fun text => line_line level 1 text

theorem isInfix_movedIn {inner lines : List Text} (inside : inner.map (line 1) <:+: lines)
    (level : Nat) : inner.map (line (level + 1)) <:+: lines.map (line level) := by
  rw [← line_comp_line_one, ← List.map_map]
  exact inside.map (line level)

/-- Whether a line shows a result, however far it is moved in. -/
def isResult (shown : Text) : Bool :=
  (Text.ofString "Result: ").toList.isPrefixOf (shown.toList.dropWhile (· == Glyph.whole ' '))

@[simp] theorem isResult_line (level : Nat) (text : Text) :
    isResult (line level text) = isResult text := by
  simp [isResult]

/-- The same trace for a tree that stands so many levels deeper. -/
def Trace.movedIn (told : Trace) (level : Nat) : Trace :=
  ⟨told.result, told.lines.map (line level)⟩

theorem Trace.movedIn_zero (told : Trace) : told.movedIn 0 = told := by
  have unmoved : line 0 = id := funext fun text => Text.ext (by simp)
  simp [movedIn, unmoved]

end Lines

/-- The trace of a tree, put together from the traces of its operands. -/
inductive Tells : Tree Text → Trace → Prop where
  | number {value : Double} :
      value.isFinite = true →
      Tells (.number value) ⟨value, ["Evaluating Number: " ++ value.display]⟩
  | unary {operator : Text} {operand : Tree Text} {inner : Trace} {result : Double} :
      Tells operand inner → applySign operator inner.result = .ok result →
      Tells (.unary operator operand)
        ⟨result, ("Evaluating UnaryOp: " ++ operator) ::
          (inner.lines.map (line 1) ++
            ["Result: " ++ operator ++ inner.result.display ++ " = " ++ result.display])⟩
  | binary {operator : Text} {left right : Tree Text} {leftTrace rightTrace : Trace}
      {result : Double} :
      Tells left leftTrace → Tells right rightTrace →
      combine operator leftTrace.result rightTrace.result = .ok result →
      Tells (.binary operator left right)
        ⟨result, ("Evaluating BinaryOp: " ++ operator) ::
          (leftTrace.lines.map (line 1) ++ (rightTrace.lines.map (line 1) ++
            ["Result: " ++ leftTrace.result.display ++ " " ++ operator ++ " "
              ++ rightTrace.result.display ++ " = " ++ result.display]))⟩

section Telling

variable {tree : Tree Text} {told traced : Trace} {level : Nat}

theorem Tells.traceAt_eq (tells : Tells tree told) (fits : level + tree.depth ≤ depthLimit) :
    traceAt level tree = .ok (told.movedIn level) := by
  induction tells generalizing level with
  | number finite =>
      rw [traceAt_number fits, leaf, if_pos finite]
      rfl
  | unary _ applied ih =>
      simp only [Tree.depth] at fits
      rw [traceAt_unary (by omega), ih (by omega)]
      simp [Trace.movedIn, applied, line_comp_line_one, bind, Except.bind, pure, Except.pure]
  | binary _ _ combined leftIH rightIH =>
      simp only [Tree.depth] at fits
      rw [traceAt_binary (by omega), leftIH (by omega), rightIH (by omega)]
      simp [Trace.movedIn, combined, line_comp_line_one, bind, Except.bind, pure, Except.pure]

theorem valueAt_of_traceAt (done : traceAt level tree = .ok traced) :
    valueAt level tree = .ok traced.result := by
  rw [← traceAt_result, done]
  rfl

theorem tells_of_traceAt (done : traceAt level tree = .ok traced) :
    ∃ told, Tells tree told ∧ traced = told.movedIn level := by
  -- That the walk came to an end bounds the level here, as it does again for each operand.
  have shallow := level_lt_of_valueAt (valueAt_of_traceAt done)
  induction tree generalizing level traced with
  | number value =>
      rw [traceAt_number shallow] at done
      obtain ⟨result, isLeaf, done⟩ := except_bind_ok done
      unfold leaf at isLeaf
      split_ifs at isLeaf with finite
      cases isLeaf
      cases done
      exact ⟨_, .number finite, rfl⟩
  | foreign typeName =>
      rw [traceAt_foreign shallow] at done
      cases done
  | unary operator operand ih =>
      rw [traceAt_unary shallow] at done
      obtain ⟨inner, operandDone, done⟩ := except_bind_ok done
      obtain ⟨result, applied, done⟩ := except_bind_ok done
      have below := level_lt_of_valueAt (valueAt_of_traceAt operandDone)
      obtain ⟨told, tells, rfl⟩ := ih operandDone below
      cases done
      refine ⟨_, .unary tells applied, ?_⟩
      simp [Trace.movedIn, line_comp_line_one]
  | binary operator left right leftIH rightIH =>
      rw [traceAt_binary shallow] at done
      obtain ⟨leftTrace, leftDone, done⟩ := except_bind_ok done
      obtain ⟨rightTrace, rightDone, done⟩ := except_bind_ok done
      obtain ⟨result, combined, done⟩ := except_bind_ok done
      have below := level_lt_of_valueAt (valueAt_of_traceAt leftDone)
      obtain ⟨leftTold, leftTells, rfl⟩ := leftIH leftDone below
      obtain ⟨rightTold, rightTells, rfl⟩ := rightIH rightDone below
      cases done
      refine ⟨_, .binary leftTells rightTells combined, ?_⟩
      simp [Trace.movedIn, line_comp_line_one]

theorem tells_of_trace (done : trace tree = .ok traced) :
    Tells tree traced ∧ tree.depth ≤ depthLimit := by
  have fromTop : traceAt 0 tree = .ok traced := by
    unfold trace at done
    cases outcome : traceAt 0 tree with
    | error cause =>
        rw [outcome] at done
        cases done
    | ok made =>
        rw [outcome] at done
        cases done
        rfl
  obtain ⟨told, tells, rfl⟩ := tells_of_traceAt fromTop
  rw [Trace.movedIn_zero]
  exact ⟨tells, by simpa using depth_le_of_valueAt (valueAt_of_traceAt fromTop)⟩

theorem Tells.trace_eq (tells : Tells tree told) (shallow : tree.depth ≤ depthLimit) :
    trace tree = .ok told := by
  rw [trace, tells.traceAt_eq (by omega : 0 + tree.depth ≤ depthLimit), Trace.movedIn_zero]
  rfl

theorem Tells.value_eq (tells : Tells tree told) (shallow : tree.depth ≤ depthLimit) :
    value tree = .ok told.result := by
  rw [← trace_result, tells.trace_eq shallow]
  rfl

/-- One line for a number, and for an operation one before its operands and one behind them. -/
theorem Tells.length_lines (tells : Tells tree told) (level : Nat) :
    told.lines.length =
      (tree.nodesFrom level).countP (fun node => node.2.isNumber) +
        2 * (tree.nodesFrom level).countP fun node => node.2.isOperation := by
  induction tells generalizing level with
  | number _ => rfl
  | unary _ _ ih =>
      have inner := ih (level + 1)
      simp only [Tree.nodesFrom, List.countP_append, List.countP_singleton, Tree.isNumber,
        Tree.isOperation, List.length_cons, List.length_append, List.length_map, List.length_nil,
        inner, reduceIte, Bool.false_eq_true]
      omega
  | binary _ _ _ leftIH rightIH =>
      have left := leftIH (level + 1)
      have right := rightIH (level + 1)
      simp only [Tree.nodesFrom, List.countP_append, List.countP_singleton, Tree.isNumber,
        Tree.isOperation, List.length_cons, List.length_append, List.length_map, List.length_nil,
        left, right, reduceIte, Bool.false_eq_true]
      omega

/-- What is told of a subtree stands in one piece in what is told of the tree. -/
theorem Tells.exists_block (tells : Tells tree told) {node : Nat × Tree Text}
    (member : node ∈ tree.nodesFrom level) :
    ∃ inner, Tells node.2 inner ∧
      inner.lines.map (line node.1) <:+: told.lines.map (line level) := by
  induction tells generalizing level with
  | number finite =>
      obtain rfl := List.mem_singleton.mp member
      exact ⟨_, .number finite, List.infix_rfl⟩
  | unary tellsOperand applied ih =>
      rw [Tree.nodesFrom, List.mem_append, List.mem_singleton] at member
      rcases member with inOperand | rfl
      · obtain ⟨inner, tellsInner, inside⟩ := ih inOperand
        refine ⟨inner, tellsInner, inside.trans (isInfix_movedIn ?_ level)⟩
        exact List.infix_cons (List.prefix_append _ _).isInfix
      · exact ⟨_, .unary tellsOperand applied, List.infix_rfl⟩
  | binary tellsLeft tellsRight combined leftIH rightIH =>
      simp only [Tree.nodesFrom, List.mem_append, List.mem_singleton] at member
      rcases member with inLeft | inRight | rfl
      · obtain ⟨inner, tellsInner, inside⟩ := leftIH inLeft
        refine ⟨inner, tellsInner, inside.trans (isInfix_movedIn ?_ level)⟩
        exact List.infix_cons (List.prefix_append _ _).isInfix
      · obtain ⟨inner, tellsInner, inside⟩ := rightIH inRight
        refine ⟨inner, tellsInner, inside.trans (isInfix_movedIn ?_ level)⟩
        exact List.infix_cons (List.infix_append' _ _ _)
      · exact ⟨_, .binary tellsLeft tellsRight combined, List.infix_rfl⟩

end Telling

/-- A text shows the result of an operation, next to what its operands come to by themselves. -/
inductive ShowsResult : Tree Text → Text → Prop where
  | unary {operator : Text} {operand : Tree Text} {inner result : Double} :
      value operand = .ok inner → value (.unary operator operand) = .ok result →
      ShowsResult (.unary operator operand)
        ("Result: " ++ operator ++ inner.display ++ " = " ++ result.display)
  | binary {operator : Text} {left right : Tree Text} {leftValue rightValue result : Double} :
      value left = .ok leftValue → value right = .ok rightValue →
      value (.binary operator left right) = .ok result →
      ShowsResult (.binary operator left right)
        ("Result: " ++ leftValue.display ++ " " ++ operator ++ " " ++ rightValue.display ++ " = "
          ++ result.display)

/-- The lines of a tree from the traces of its operands: an operation has its operands between its
heading and its result. -/
inductive Block : Tree Text → List Text → Prop where
  | number {value : Double} : Block (.number value) ["Evaluating Number: " ++ value.display]
  | unary {operator : Text} {operand : Tree Text} {inner : Trace} {shown : Text} :
      trace operand = .ok inner → ShowsResult (.unary operator operand) shown →
      Block (.unary operator operand)
        (("Evaluating UnaryOp: " ++ operator) :: (inner.lines.map (line 1) ++ [shown]))
  | binary {operator : Text} {left right : Tree Text} {leftTrace rightTrace : Trace}
      {shown : Text} :
      trace left = .ok leftTrace → trace right = .ok rightTrace →
      ShowsResult (.binary operator left right) shown →
      Block (.binary operator left right)
        (("Evaluating BinaryOp: " ++ operator) ::
          (leftTrace.lines.map (line 1) ++ (rightTrace.lines.map (line 1) ++ [shown])))

section Showing

variable {tree : Tree Text} {told : Trace}

theorem Tells.block (tells : Tells tree told) (shallow : tree.depth ≤ depthLimit) :
    Block tree told.lines := by
  have comes := tells.value_eq shallow
  cases tells with
  | number _ => exact .number
  | unary tellsOperand _ =>
      simp only [Tree.depth] at shallow
      refine .unary (tellsOperand.trace_eq (by omega)) (.unary ?_ comes)
      exact tellsOperand.value_eq (by omega)
  | binary tellsLeft tellsRight _ =>
      simp only [Tree.depth] at shallow
      refine .binary (tellsLeft.trace_eq (by omega)) (tellsRight.trace_eq (by omega))
        (.binary ?_ ?_ comes)
      · exact tellsLeft.value_eq (by omega)
      · exact tellsRight.value_eq (by omega)

theorem ShowsResult.isResult {shown : Text} (shows : ShowsResult tree shown) :
    isResult shown = true := by
  cases shows <;> rfl

theorem Block.getLast?_eq {lines : List Text} (block : Block tree lines)
    (operation : tree.isOperation = true) :
    ∃ shown, lines.getLast? = some shown ∧ ShowsResult tree shown := by
  cases block with
  | number => cases operation
  | unary _ shows =>
      refine ⟨_, ?_, shows⟩
      rw [← List.cons_append, List.getLast?_concat]
  | binary _ _ shows =>
      refine ⟨_, ?_, shows⟩
      rw [← List.append_assoc, ← List.cons_append, List.getLast?_concat]

/-- Of the lines of an operation, the heading shows no result and the last one does. -/
theorem filter_isResult {heading last : Text} (isHeading : isResult heading = false)
    (isLast : isResult last = true) (lines : List Text) (level : Nat) :
    ((heading :: (lines ++ [last])).map (line level)).filter isResult =
      (lines.map (line level)).filter isResult ++ [line level last] := by
  simp [isHeading, isLast]

/-- Operations and the lines that show their results come in the same order. -/
theorem Tells.results (tells : Tells tree told) (shallow : tree.depth ≤ depthLimit)
    (level : Nat) :
    List.Forall₂ (fun node shown => ∃ text, ShowsResult node.2 text ∧ shown = line node.1 text)
      ((tree.nodesFrom level).filter fun node => node.2.isOperation)
      ((told.lines.map (line level)).filter isResult) := by
  induction tells generalizing level with
  | @number value _ =>
      have heading : isResult ("Evaluating Number: " ++ value.display) = false := rfl
      simp [Tree.nodesFrom, Tree.isOperation, heading]
  | unary tellsOperand applied ih =>
      have comes := (Tells.unary tellsOperand applied).value_eq shallow
      simp only [Tree.depth] at shallow
      have shows := ShowsResult.unary (tellsOperand.value_eq (by omega)) comes
      rw [filter_isResult rfl shows.isResult, List.map_map, line_comp_line_one, Tree.nodesFrom,
        List.filter_append]
      exact List.rel_append (ih (by omega) (level + 1)) (.cons ⟨_, shows, rfl⟩ .nil)
  | binary tellsLeft tellsRight combined leftIH rightIH =>
      have comes := (Tells.binary tellsLeft tellsRight combined).value_eq shallow
      simp only [Tree.depth] at shallow
      have shows := ShowsResult.binary (tellsLeft.value_eq (by omega))
        (tellsRight.value_eq (by omega)) comes
      rw [← List.append_assoc, filter_isResult rfl shows.isResult, List.map_append, List.map_map,
        List.map_map, line_comp_line_one, Tree.nodesFrom, List.filter_append, List.filter_append,
        List.filter_append, List.append_assoc]
      refine List.rel_append (leftIH (by omega) (level + 1)) ?_
      exact List.rel_append (rightIH (by omega) (level + 1)) (.cons ⟨_, shows, rfl⟩ .nil)

end Showing

/-- A trace has the value of its tree, a line for each number and two for each operation, and the
trace of every subtree as a block, moved in by the level at which the subtree stands. The lines with
results belong to the operations one by one, in the order of the walk, and show what evaluating the
operands and the operation by themselves comes to; the one of the whole tree is the last line. -/
theorem trace_is_compositional {tree : Tree Text} {traced : Trace}
    (done : trace tree = .ok traced) :
    value tree = .ok traced.result ∧
      traced.lines.length =
        (tree.nodesFrom 0).countP (fun node => node.2.isNumber) +
          2 * (tree.nodesFrom 0).countP (fun node => node.2.isOperation) ∧
      (∀ node ∈ tree.nodesFrom 0, ∃ inner, trace node.2 = .ok inner ∧ Block node.2 inner.lines ∧
        inner.lines.map (line node.1) <:+: traced.lines) ∧
      List.Forall₂ (fun node shown => ∃ text, ShowsResult node.2 text ∧ shown = line node.1 text)
        ((tree.nodesFrom 0).filter fun node => node.2.isOperation)
        (traced.lines.filter isResult) ∧
      (tree.isOperation = true →
        ∃ shown, traced.lines.getLast? = some shown ∧ ShowsResult tree shown) := by
  obtain ⟨tells, shallow⟩ := tells_of_trace done
  have unmoved : traced.lines.map (line 0) = traced.lines :=
    congrArg Trace.lines traced.movedIn_zero
  refine ⟨tells.value_eq shallow, tells.length_lines 0, ?_, ?_, (tells.block shallow).getLast?_eq⟩
  · intro node member
    obtain ⟨inner, tellsInner, inside⟩ := tells.exists_block member
    have below := Tree.depth_le_of_mem_nodesFrom member
    have innerShallow : node.2.depth ≤ depthLimit := by omega
    rw [unmoved] at inside
    exact ⟨inner, tellsInner.trace_eq innerShallow, tellsInner.block innerShallow, inside⟩
  · have results := tells.results shallow 0
    rwa [unmoved] at results

/-- Two plus the product of minus three and four. -/
def sumWithProduct : Tree Text :=
  .binary "+" (.number (.ofInt 2))
    (.binary "*" (.unary "-" (.number (.ofInt 3))) (.number (.ofInt 4)))

def sumWithProductTrace : Trace :=
  { result := .ofInt (-10)
    lines :=
      ["Evaluating BinaryOp: +",
        "  Evaluating Number: 2",
        "  Evaluating BinaryOp: *",
        "    Evaluating UnaryOp: -",
        "      Evaluating Number: 3",
        "    Result: -3 = -3",
        "    Evaluating Number: 4",
        "  Result: -3 * 4 = -12",
        "Result: 2 + -12 = -10"] }

theorem sumWithProduct_is_told :
    trace sumWithProduct = .ok sumWithProductTrace ∧
      value sumWithProduct = .ok sumWithProductTrace.result ∧
      (∀ node ∈ sumWithProduct.nodesFrom 0, ∃ inner, trace node.2 = .ok inner ∧
        Block node.2 inner.lines ∧ inner.lines.map (line node.1) <:+: sumWithProductTrace.lines) ∧
      ShowsResult sumWithProduct "Result: 2 + -12 = -10" := by
  have done : trace sumWithProduct = .ok sumWithProductTrace := by decide +kernel
  obtain ⟨comes, -, blocks, -, last⟩ := trace_is_compositional done
  obtain ⟨shown, isLast, shows⟩ := last rfl
  cases isLast
  exact ⟨done, comes, blocks, shows⟩

end Reckon.Evaluation
