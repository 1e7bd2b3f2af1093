import Reckon.Proofs.Evaluations
import Reckon.Proofs.Lines
import Reckon.Proofs.SameTrees

/-!
# Dumps of trees

A tree has a dump if and only if a walk comes to its last level. A dump has one line for each node
of the tree, in the order in which a walk comes to the nodes, with the level of the node as its
indentation. The label on a line tells how many operands follow, so where the lines of a subtree end
is known without their indentation, and no two trees have a dump in common.
-/

set_option autoImplicit false

namespace Reckon.Tree

def label : Tree Text → Text
  | .number value => "Number(" ++ value.display ++ ")"
  | .unary operator _ => "UnaryOp(" ++ operator ++ ")"
  | .binary operator _ _ => "BinaryOp(" ++ operator ++ ")"
  | .foreign _ => "Unknown node type"

@[simp] theorem label_number (value : Double) :
    (number value).label = "Number(" ++ value.display ++ ")" := rfl

@[simp] theorem label_unary (operator : Text) (operand : Tree Text) :
    (unary operator operand).label = "UnaryOp(" ++ operator ++ ")" := rfl

@[simp] theorem label_binary (operator : Text) (left right : Tree Text) :
    (binary operator left right).label = "BinaryOp(" ++ operator ++ ")" := rfl

@[simp] theorem label_foreign (typeName : String) :
    (foreign typeName : Tree Text).label = "Unknown node type" := rfl

def labelLine (indent : Int) (node : Tree Text) : Text :=
  Text.ofString (indentation indent) ++ node.label

@[simp] theorem toList_labelLine (indent : Int) (node : Tree Text) :
    (labelLine indent node).toList =
      List.replicate (2 * indent.toNat) (.whole ' ') ++ node.label.toList := by
  simp [labelLine, indentation]

section Lines

variable {indent : Int} {levels : Nat}

/-- The lines of a tree, however deep it is. -/
def dumpLines (indent : Int) : Tree Text → List Text
  | .number value => [labelLine indent (.number value)]
  | .unary operator operand =>
    labelLine indent (.unary operator operand) :: operand.dumpLines (indent + 1)
  | .binary operator left right =>
    labelLine indent (.binary operator left right)
      :: (left.dumpLines (indent + 1) ++ right.dumpLines (indent + 1))
  | .foreign typeName => [labelLine indent (.foreign typeName)]

theorem dumpLinesWithin_number (value : Double) :
    dumpLinesWithin (levels + 1) indent (.number value) =
      .ok [labelLine indent (.number value)] := by
  refine congrArg Except.ok (List.cons_eq_cons.mpr ⟨Text.ext ?_, rfl⟩)
  simp [indentation]

theorem dumpLinesWithin_unary (operator : Text) (operand : Tree Text) :
    dumpLinesWithin (levels + 1) indent (.unary operator operand) = do
      return labelLine indent (.unary operator operand)
        :: (← dumpLinesWithin levels (indent + 1) operand) := by
  refine bind_congr fun operandLines => congrArg pure (List.cons_eq_cons.mpr ⟨Text.ext ?_, rfl⟩)
  simp [indentation]

theorem dumpLinesWithin_binary (operator : Text) (left right : Tree Text) :
    dumpLinesWithin (levels + 1) indent (.binary operator left right) = do
      let leftLines ← dumpLinesWithin levels (indent + 1) left
      let rightLines ← dumpLinesWithin levels (indent + 1) right
      return labelLine indent (.binary operator left right) :: (leftLines ++ rightLines) := by
  refine bind_congr fun leftLines => bind_congr fun rightLines =>
    congrArg pure (List.cons_eq_cons.mpr ⟨Text.ext ?_, rfl⟩)
  simp [indentation]

theorem dumpLinesWithin_foreign (typeName : String) :
    dumpLinesWithin (levels + 1) indent (.foreign typeName) =
      .ok [labelLine indent (.foreign typeName)] := by
  refine congrArg Except.ok (List.cons_eq_cons.mpr ⟨Text.ext ?_, rfl⟩)
  simp [indentation]

/-- A walk comes to the end of a tree if and only if the tree has no more levels than the walk can
visit. -/
theorem dumpLinesWithin_eq (levels : Nat) (indent : Int) (tree : Tree Text) :
    dumpLinesWithin levels indent tree =
      if tree.depth ≤ levels then .ok (tree.dumpLines indent) else .error .callDepth := by
  induction levels generalizing indent tree with
  | zero => exact (if_neg tree.depth_pos.not_ge).symm
  | succ levels ih =>
      cases tree with
      | number value =>
          exact (dumpLinesWithin_number value).trans (if_pos (Nat.succ_le_succ levels.zero_le)).symm
      | foreign typeName =>
          exact (dumpLinesWithin_foreign typeName).trans
            (if_pos (Nat.succ_le_succ levels.zero_le)).symm
      | unary operator operand =>
          rw [dumpLinesWithin_unary, ih, dumpLines]
          simp only [depth_unary_le_iff]
          by_cases visited : operand.depth ≤ levels <;>
            simp [visited, bind, Except.bind, pure, Except.pure]
      | binary operator left right =>
          rw [dumpLinesWithin_binary, ih, ih, dumpLines]
          simp only [depth_binary_le_iff]
          by_cases leftVisited : left.depth ≤ levels <;>
            by_cases rightVisited : right.depth ≤ levels <;>
            simp [leftVisited, rightVisited, bind, Except.bind, pure, Except.pure]

theorem dump_eq (tree : Tree Text) (indent : Int) :
    tree.dump indent =
      if tree.depth ≤ depthLimit then .ok (Text.intercalate "\n" (tree.dumpLines indent))
      else .error .callDepth := by
  rw [dump, dumpLinesWithin_eq]
  split_ifs <;> rfl

theorem dump_eq_ok_iff {tree : Tree Text} {text : Text} :
    tree.dump indent = .ok text ↔
      tree.depth ≤ depthLimit ∧ Text.intercalate "\n" (tree.dumpLines indent) = text := by
  rw [dump_eq]
  split_ifs with visited <;> simp [visited]

theorem dump_of_depth_le {tree : Tree Text} (visited : tree.depth ≤ depthLimit) (indent : Int) :
    tree.dump indent = .ok (Text.intercalate "\n" (tree.dumpLines indent)) :=
  dump_eq_ok_iff.mpr ⟨visited, rfl⟩

theorem exists_dump_of_value {tree : Tree Text} {value : Double}
    (evaluated : Evaluation.value tree = .ok value) (indent : Int) :
    ∃ text, tree.dump indent = .ok text :=
  ⟨_, dump_of_depth_le (Evaluation.depth_le_of_value evaluated) indent⟩

/-- The lines of a dump are those of the nodes, in the order in which a walk comes to them. -/
theorem dumpLines_eq (tree : Tree Text) (indent : Int) (level : Nat) :
    tree.dumpLines (indent + level) =
      (tree.preorderFrom level).map fun node => labelLine (indent + node.1) node.2 := by
  induction tree generalizing level with
  | number | foreign => rfl
  | unary operator operand ih =>
      rw [dumpLines, Int.add_assoc, ← Nat.cast_succ, ih]
      rfl
  | binary operator left right leftIH rightIH =>
      rw [dumpLines, Int.add_assoc, ← Nat.cast_succ, leftIH, rightIH, preorderFrom,
        List.map_cons, List.map_append]

end Lines

section Decoding

variable {indent : Int} {tree other : Tree Text} {rest rest' : List Text}

/-- Two nodes are alike but for their operands. -/
def SameHead : Tree Text → Tree Text → Prop
  | .number value, .number value' => value = value'
  | .unary operator _, .unary operator' _ => operator = operator'
  | .binary operator _ _, .binary operator' _ _ => operator = operator'
  | .foreign _, .foreign _ => True
  | _, _ => False

theorem sameHead_of_label (same : tree.label = other.label) : SameHead tree other := by
  have glyphs := congrArg Text.toList same
  cases tree <;> cases other <;> simp at glyphs
  case number.number value value' =>
    have characters := List.map_injective_iff.mpr (fun _ _ => Glyph.whole.inj) glyphs
    exact Double.display_injective (String.toList_inj.mp characters)
  case unary.unary => exact Text.ext glyphs
  case binary.binary => exact Text.ext glyphs
  case foreign.foreign => trivial

theorem exists_below (tree : Tree Text) (indent : Int) :
    ∃ below, tree.dumpLines indent = labelLine indent tree :: below := by
  cases tree <;> exact ⟨_, rfl⟩

theorem sameHead_of_dumpLines
    (same : tree.dumpLines indent ++ rest = other.dumpLines indent ++ rest') :
    SameHead tree other := by
  obtain ⟨below, lines⟩ := exists_below tree indent
  obtain ⟨below', lines'⟩ := exists_below other indent
  rw [lines, lines', List.cons_append, List.cons_append, List.cons.injEq] at same
  have glyphs := congrArg Text.toList same.1
  rw [toList_labelLine, toList_labelLine] at glyphs
  exact sameHead_of_label (Text.ext (List.append_cancel_left glyphs))

/-- Where the lines of a tree are followed by others, they tell the tree and where they end. -/
theorem dumpLines_append_inj (nodes : tree.foreignType? = none)
    (otherNodes : other.foreignType? = none)
    (same : tree.dumpLines indent ++ rest = other.dumpLines indent ++ rest') :
    tree = other ∧ rest = rest' := by
  induction tree generalizing indent other rest rest' with
  | foreign typeName => cases nodes
  | number value =>
      have head := sameHead_of_dumpLines same
      cases other with
      | number value' =>
          obtain rfl : value = value' := head
          exact ⟨rfl, List.append_cancel_left same⟩
      | _ => cases head
  | unary operator operand ih =>
      have head := sameHead_of_dumpLines same
      cases other with
      | unary operator' operand' =>
          obtain rfl : operator = operator' := head
          rw [dumpLines, dumpLines, List.cons_append, List.cons_append,
            List.cons.injEq] at same
          rw [foreignType?] at nodes otherNodes
          obtain ⟨rfl, rests⟩ := ih nodes otherNodes same.2
          exact ⟨rfl, rests⟩
      | _ => cases head
  | binary operator left right leftIH rightIH =>
      have head := sameHead_of_dumpLines same
      cases other with
      | binary operator' left' right' =>
          obtain rfl : operator = operator' := head
          rw [dumpLines, dumpLines, List.cons_append, List.cons_append,
            List.cons.injEq, List.append_assoc, List.append_assoc] at same
          obtain ⟨-, same⟩ := same
          obtain ⟨leftNodes, rightNodes⟩ := Option.or_eq_none_iff.mp nodes
          obtain ⟨leftNodes', rightNodes'⟩ := Option.or_eq_none_iff.mp otherNodes
          obtain ⟨rfl, behind⟩ := leftIH leftNodes leftNodes' same
          obtain ⟨rfl, rests⟩ := rightIH rightNodes rightNodes' behind
          exact ⟨rfl, rests⟩
      | _ => cases head

end Decoding

/-- The trees that are made of nodes only and have no line break in their operators. -/
inductive HasPlainOperators : Tree Text → Prop where
  | number {value : Double} : HasPlainOperators (.number value)
  | unary {operator : Text} {operand : Tree Text} : Glyph.whole '\n' ∉ operator.toList →
      HasPlainOperators operand → HasPlainOperators (.unary operator operand)
  | binary {operator : Text} {left right : Tree Text} : Glyph.whole '\n' ∉ operator.toList →
      HasPlainOperators left → HasPlainOperators right →
      HasPlainOperators (.binary operator left right)

namespace HasPlainOperators

variable {tree other : Tree Text} (plain : tree.HasPlainOperators)
include plain

theorem foreignType?_eq_none : tree.foreignType? = none := by
  induction plain with
  | number => rfl
  | unary _ _ ih => exact ih
  | binary _ _ _ leftIH rightIH => rw [foreignType?, leftIH, rightIH, Option.or_none]

theorem break_notMem_labelLine (indent : Int) :
    Glyph.whole '\n' ∉ (labelLine indent tree).toList := by
  cases plain with
  | @number value =>
      have noBreak := Double.break_notMem_displayCharacters value
      simp [Double.display, noBreak]
  | unary oneLine _ => simp [oneLine]
  | binary oneLine _ _ => simp [oneLine]

theorem break_notMem_dumpLines {indent : Int} {line : Text}
    (member : line ∈ tree.dumpLines indent) : Glyph.whole '\n' ∉ line.toList := by
  have heading := plain.break_notMem_labelLine indent
  induction plain generalizing indent with
  | number =>
      rw [dumpLines, List.mem_singleton] at member
      exact member ▸ heading
  | @unary operator operand _ plain ih =>
      rw [dumpLines, List.mem_cons] at member
      rcases member with rfl | below
      · exact heading
      · exact ih below (plain.break_notMem_labelLine _)
  | @binary operator left right _ leftPlain rightPlain leftIH rightIH =>
      rw [dumpLines, List.mem_cons, List.mem_append] at member
      rcases member with rfl | inLeft | inRight
      · exact heading
      · exact leftIH inLeft (leftPlain.break_notMem_labelLine _)
      · exact rightIH inRight (rightPlain.break_notMem_labelLine _)

theorem lines_of_dump {indent : Int} {text : Text} (dumped : tree.dump indent = .ok text) :
    text.lines = (tree.dumpLines indent).map Text.toList := by
  obtain ⟨-, rfl⟩ := dump_eq_ok_iff.mp dumped
  obtain ⟨below, lines⟩ := exists_below tree indent
  exact Text.lines_intercalate_of_lines (lines ▸ List.cons_ne_nil _ _)
    fun _ => plain.break_notMem_dumpLines

theorem eq_of_dump (otherPlain : other.HasPlainOperators) {indent : Int} {text : Text}
    (dumped : tree.dump indent = .ok text) (otherDumped : other.dump indent = .ok text) :
    tree = other := by
  have glyphs : (tree.dumpLines indent).map Text.toList =
      (other.dumpLines indent).map Text.toList := by
    rw [← plain.lines_of_dump dumped, ← otherPlain.lines_of_dump otherDumped]
  have lines := List.map_injective_iff.mpr (fun _ _ => Text.ext) glyphs
  have ended : tree.dumpLines indent ++ [] = other.dumpLines indent ++ [] := by rw [lines]
  exact (dumpLines_append_inj plain.foreignType?_eq_none otherPlain.foreignType?_eq_none ended).1

end HasPlainOperators

/-- A negated zero divided by something that is not a number. -/
def zeroQuotient (negative : Bool) : Tree Text :=
  .binary "/" (.unary "-" (.number (.zero negative))) (.number .nan)

theorem hasPlainOperators_onesAdded (more : Nat) : (onesAdded more).HasPlainOperators := by
  induction more with
  | zero => exact .number
  | succ more ih => exact .binary (by decide) ih .number

end Reckon.Tree
