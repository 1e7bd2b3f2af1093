import Mathlib.Data.List.Find
import Reckon.Proofs.ShiftReduce.Turns

/-!
# The rule that the table selects

Which rule of the table applies to a stack, by the symbols at its top. A rule applies when its
right-hand side ends the stack, so its reversed right-hand side starts the stack read downwards.
-/

set_option autoImplicit false

namespace Reckon.Grammar

theorem covered_eq_take {α : Type} {width : Nat} (positive : width ≠ 0) (stack : List α) :
    covered width stack = stack.take width := if_neg positive

theorem uncovered_eq_drop {α : Type} {width : Nat} (positive : width ≠ 0) (stack : List α) :
    uncovered width stack = stack.drop width := if_neg positive

theorem matchesTop_eq_isPrefixOf {rule : Rule} (nonempty : rule.rhs ≠ []) (stack : List Text) :
    matchesTop rule stack = rule.rhs.reverse.isPrefixOf stack := by
  have positive : rule.rhs.length ≠ 0 := by simpa using nonempty
  rw [Bool.eq_iff_iff, List.isPrefixOf_iff_prefix, matchesTop, covered_eq_take positive]
  simp only [Bool.and_eq_true, decide_eq_true_eq, beq_iff_eq]
  constructor
  · rintro ⟨-, top⟩
    rw [← top]
    exact List.take_prefix _ _
  · intro top
    have length := top.length_le
    rw [List.length_reverse] at length
    refine ⟨length, ?_⟩
    rw [← List.length_reverse, (List.prefix_iff_eq_take.mp top).symm]

/-- Where a rule of any table matches, its right-hand side is what folding takes off the stack. -/
theorem eq_of_matchesTop {rule : Rule} {stack : List Text} (top : matchesTop rule stack = true) :
    stack = rule.rhs.reverse ++ uncovered rule.rhs.length stack := by
  obtain ⟨-, same⟩ := Bool.and_eq_true_iff.mp top
  have covers : covered rule.rhs.length stack = rule.rhs.reverse := eq_of_beq same
  by_cases empty : rule.rhs.length = 0
  · rw [covered, if_pos empty] at covers
    rw [uncovered, if_pos empty, List.append_nil, covers]
  · rw [covered_eq_take empty] at covers
    rw [uncovered_eq_drop empty, ← covers, List.take_append_drop]

theorem findReduction?_matches {rules : List Rule} {stack : List Text} {lookahead : Text}
    {rule : Rule} (found : findReduction? rules stack lookahead = some rule) :
    rule ∈ rules ∧ stack = rule.rhs.reverse ++ uncovered rule.rhs.length stack := by
  unfold findReduction? at found
  have holds := List.find?_some found
  obtain ⟨top, -⟩ := Bool.and_eq_true_iff.mp holds
  exact ⟨List.mem_of_find?_eq_some found, eq_of_matchesTop top⟩

theorem table_rhs_ne_nil : ∀ rule ∈ Rule.table, rule.rhs ≠ [] := by decide

/-- The actions that make the trees of expressions. A rule of another table may have any action. -/
inductive BuildsTrees : Action → Prop where
  | number : BuildsTrees .number
  | group : BuildsTrees .group
  | pass : BuildsTrees .pass
  | unary {operator : Text} : BuildsTrees (.unary operator)
  | binary {operator : Text} : BuildsTrees (.binary operator)

theorem table_buildsTrees : ∀ rule ∈ Rule.table, BuildsTrees rule.action := by
  intro rule member
  simp only [Rule.table, List.mem_cons, List.not_mem_nil, or_false] at member
  rcases member with rfl | rfl | rfl | rfl | rfl | rfl | rfl | rfl | rfl | rfl <;> constructor

theorem findReduction?_spec {stack : List Text} {lookahead : Text} {rule : Rule}
    (found : findReduction? Rule.table stack lookahead = some rule) :
    rule ∈ Rule.table ∧ rule.rhs.reverse <+: stack ∧ canReduce rule.lhs lookahead = true := by
  unfold findReduction? at found
  have member := List.mem_of_find?_eq_some found
  have holds := List.find?_some found
  obtain ⟨top, permitted⟩ := Bool.and_eq_true_iff.mp holds
  rw [matchesTop_eq_isPrefixOf (table_rhs_ne_nil rule member), List.isPrefixOf_iff_prefix] at top
  exact ⟨member, top, permitted⟩

theorem findReduction?_eq (stack : List Text) (lookahead : Text) :
    findReduction? Rule.table stack lookahead =
      Rule.table.find? fun rule =>
        rule.rhs.reverse.isPrefixOf stack && canReduce rule.lhs lookahead := by
  unfold findReduction?
  refine List.find?_congr fun rule member => ?_
  rw [matchesTop_eq_isPrefixOf (table_rhs_ne_nil rule member)]

variable {lookahead : Text} {stack : List Text}

/-- Upon a sign, an operator or an opening parenthesis the next token must be shifted. -/
theorem findReduction?_of_context {top : Text} (context : signContext.contains top = true) :
    findReduction? Rule.table (top :: stack) lookahead = none := by
  rw [findReduction?_eq]
  simp only [signContext, List.contains_eq_mem, List.mem_cons, List.not_mem_nil, or_false,
    decide_eq_true_eq] at context
  rcases context with rfl | rfl | rfl | rfl | rfl | rfl | rfl <;> simp [Rule.table]

theorem findReduction?_nil : findReduction? Rule.table [] lookahead = none := by
  rw [findReduction?_eq]
  simp [Rule.table]

theorem findReduction?_expression : findReduction? Rule.table ("E" :: stack) lookahead = none := by
  rw [findReduction?_eq]
  simp [Rule.table]

theorem findReduction?_numeral (permitted : canReduce "F" lookahead = true) :
    findReduction? Rule.table ("NUMBER" :: stack) lookahead =
      some ⟨"F", ["NUMBER"], .number⟩ := by
  rw [findReduction?_eq]
  simp [Rule.table, permitted]

theorem findReduction?_group (permitted : canReduce "F" lookahead = true) :
    findReduction? Rule.table (")" :: "E" :: "(" :: stack) lookahead =
      some ⟨"F", ["(", "E", ")"], .group⟩ := by
  rw [findReduction?_eq]
  simp [Rule.table, permitted]

theorem findReduction?_signed {operator : Text} (sign : operator = "+" ∨ operator = "-")
    (permitted : canReduce "F" lookahead = true) :
    findReduction? Rule.table ("F" :: ("u" ++ operator) :: stack) lookahead =
      some ⟨"F", ["u" ++ operator, "F"], .unary operator⟩ := by
  have marks : ("u" : Text) ++ "+" = "u+" ∧ ("u" : Text) ++ "-" = "u-" := by decide
  rw [findReduction?_eq]
  rcases sign with rfl | rfl <;> simp [Rule.table, permitted, marks]

theorem findReduction?_product {operator : Text} (scaling : operator = "*" ∨ operator = "/")
    (permitted : canReduce "T" lookahead = true) :
    findReduction? Rule.table ("F" :: operator :: "T" :: stack) lookahead =
      some ⟨"T", ["T", operator, "F"], .binary operator⟩ := by
  rw [findReduction?_eq]
  rcases scaling with rfl | rfl <;> simp [Rule.table, permitted]

theorem findReduction?_sum {operator : Text} (additive : operator = "+" ∨ operator = "-")
    (permitted : canReduce "E" lookahead = true) :
    findReduction? Rule.table ("T" :: operator :: "E" :: stack) lookahead =
      some ⟨"E", ["E", operator, "T"], .binary operator⟩ := by
  rw [findReduction?_eq]
  rcases additive with rfl | rfl <;> simp [Rule.table, permitted]

/-- A factor becomes a term unless the symbol below it wants a factor. -/
theorem findReduction?_factor (permitted : canReduce "T" lookahead = true)
    (below : ∀ symbol ∈ stack.head?, symbol ∉ (["u+", "u-", "*", "/"] : List Text)) :
    findReduction? Rule.table ("F" :: stack) lookahead = some ⟨"T", ["F"], .pass⟩ := by
  rw [findReduction?_eq]
  cases stack with
  | nil => simp [Rule.table, permitted]
  | cons symbol rest =>
      have others := below symbol rfl
      simp only [List.mem_cons, List.not_mem_nil, or_false, not_or] at others
      obtain ⟨plus, minus, times, divide⟩ := others
      simp [Rule.table, permitted, Ne.symm plus, Ne.symm minus, Ne.symm times, Ne.symm divide]

/-- A term becomes an expression unless the symbol below it wants a term. -/
theorem findReduction?_term (permitted : canReduce "E" lookahead = true)
    (below : ∀ symbol ∈ stack.head?, symbol ∉ (["+", "-"] : List Text)) :
    findReduction? Rule.table ("T" :: stack) lookahead = some ⟨"E", ["T"], .pass⟩ := by
  rw [findReduction?_eq]
  cases stack with
  | nil => simp [Rule.table, permitted]
  | cons symbol rest =>
      have others := below symbol rfl
      simp only [List.mem_cons, List.not_mem_nil, or_false, not_or] at others
      obtain ⟨plus, minus⟩ := others
      simp [Rule.table, permitted, Ne.symm plus, Ne.symm minus]

/-- A term in front of an operator of its own level waits for the operator. -/
theorem findReduction?_termWaits (refused : canReduce "E" lookahead = false) :
    findReduction? Rule.table ("T" :: stack) lookahead = none := by
  rw [findReduction?_eq]
  simp [Rule.table, refused]

end Reckon.Grammar
