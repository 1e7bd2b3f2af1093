import Reckon.Proofs.ShiftReduce.Stacks

/-!
# Levels of the machine

What may stand on the stack below a nonterminal, and the two levels of the grammar as the machine
parses them: their rules, and which of the rules the table selects where the operands of a level
have been read.
-/

set_option autoImplicit false

namespace Reckon

/-- The turns that the machine takes for the tokens of a derivation. -/
def Derivation.turns {nonterminal : Nonterminal} : Derivation nonterminal → Nat
  | .numeral _ _ => 2
  | .group _ _ _ _ inner => 1 + inner.turns + 2
  | .signed _ _ operand => 1 + operand.turns + 1
  | .single factor => factor.turns + 1
  | .product left _ _ right => left.turns + 1 + right.turns + 1
  | .alone term => term.turns + 1
  | .sum left _ _ right => left.turns + 1 + right.turns + 1

namespace ShiftReduce

open Grammar (canReduce findReduction? shiftSymbol signContext)

/-- The symbols below which a nonterminal may be made. -/
def contexts : Nonterminal → List Text
  | .expression => ["("]
  | .term => ["(", "+", "-"]
  | .factor => signContext

/-- Whether a nonterminal is wanted on top of a stack. -/
def Wants (nonterminal : Nonterminal) (stack : List Text) : Prop :=
  ∀ symbol ∈ stack.head?, symbol ∈ contexts nonterminal

theorem Wants.mono {wanted other : Nonterminal} {stack : List Text}
    (fewer : ∀ symbol ∈ contexts wanted, symbol ∈ contexts other) (wants : Wants wanted stack) :
    Wants other stack :=
  fun symbol top => fewer symbol (wants symbol top)

theorem Wants.cons {nonterminal : Nonterminal} {symbol : Text} {stack : List Text}
    (known : symbol ∈ contexts nonterminal) : Wants nonterminal (symbol :: stack) := by
  rintro _ ⟨⟩
  exact known

theorem terminal_of_notMem {symbol : Text} (notNonterminal : symbol ∉ (["E", "T", "F"] : List Text))
    (nonterminal : Nonterminal) : symbol ≠ nonterminal.symbol := by
  rintro rfl
  cases nonterminal <;> simp [Nonterminal.symbol] at notNonterminal

theorem canReduce_iff {symbol : Text} {allowed : List Text} {lookahead : Text}
    (entry : Grammar.follow.lookup symbol = some allowed) :
    canReduce symbol lookahead = true ↔ lookahead = endMark ∨ lookahead ∈ allowed := by
  simp [canReduce, entry]

theorem canReduce_of_mem {symbol other : Text} {allowed more : List Text} {lookahead : Text}
    (entry : Grammar.follow.lookup symbol = some allowed)
    (otherEntry : Grammar.follow.lookup other = some more) (fewer : ∀ text ∈ allowed, text ∈ more)
    (permitted : canReduce symbol lookahead = true) : canReduce other lookahead = true := by
  rw [canReduce_iff entry] at permitted
  rw [canReduce_iff otherEntry]
  exact permitted.imp_right (fewer lookahead)

/-- A level of the grammar as the machine parses it. -/
structure Level extends Reckon.Level where
  IsText : Text → Prop
  terminal : ∀ {operator : Text}, IsText operator → ∀ nonterminal : Nonterminal,
    operator ≠ nonterminal.symbol
  marked : ∀ {token : Token} {operator : Text}, Marks token operator → IsText operator →
    IsOperator token ∧ token.text = operator
  operand_ne : operand ≠ .expression
  turns_only : ∀ derivation, (only derivation).turns = derivation.turns + 1
  turns_fold : ∀ left operator isOperator right,
    (fold left operator isOperator right).turns = left.turns + 1 + right.turns + 1
  wants_operand : ∀ {stack : List Text}, Wants whole stack → Wants operand stack
  wants_behind : ∀ {token : Token}, IsOperator token → ∀ stack : List Text,
    Wants operand (token.text :: stack)
  follows_operand : ∀ {lookahead : Text}, canReduce whole.symbol lookahead = true →
    canReduce operand.symbol lookahead = true
  follows_operator : ∀ {token : Token}, IsOperator token →
    canReduce whole.symbol token.text = true
  shiftSymbol_eq : ∀ {token : Token}, IsOperator token →
    shiftSymbol token (some whole.symbol) = token.text
  waits : ∀ {token : Token}, IsOperator token → ∀ stack : List Text,
    findReduction? Rule.table (whole.symbol :: stack) token.text = none
  selects_only : ∀ {stack : List Text} {lookahead : Text}, Wants whole stack →
    canReduce whole.symbol lookahead = true →
    findReduction? Rule.table (operand.symbol :: stack) lookahead =
      some ⟨whole.symbol, [operand.symbol], .pass⟩
  selects_fold : ∀ {token : Token} {lookahead : Text}, IsOperator token →
    canReduce whole.symbol lookahead = true → ∀ stack : List Text,
    findReduction? Rule.table (operand.symbol :: token.text :: whole.symbol :: stack) lookahead =
      some ⟨whole.symbol, [whole.symbol, token.text, operand.symbol], .binary token.text⟩
  label_only : Rule.label ⟨whole.symbol, [operand.symbol], .pass⟩ = unit
  label_fold : ∀ {token : Token}, IsOperator token →
    Rule.label ⟨whole.symbol, [whole.symbol, token.text, operand.symbol], .binary token.text⟩ =
      rule token.text

namespace Level

def products : Level where
  toLevel := .products
  IsText operator := operator = "*" ∨ operator = "/"
  terminal isText := terminal_of_notMem (by rcases isText with rfl | rfl <;> decide)
  marked marks isText := marks.isMultiplicative isText
  operand_ne := by decide
  turns_only _ := rfl
  turns_fold _ _ _ _ := rfl
  wants_operand := Wants.mono (by decide)
  wants_behind operator _ := .cons (by
    rcases operator.text with times | divide <;> simp only [*] <;> decide)
  follows_operand := canReduce_of_mem rfl rfl (by decide)
  follows_operator operator := by
    rcases operator.text with times | divide <;> simp only [*] <;> decide
  shiftSymbol_eq operator := by
    rw [shiftSymbol_of_not_sign, operator.symbol]
    rcases operator.text with times | divide <;> simp [operator.symbol, Grammar.isSignSymbol, *]
  waits operator _ := Grammar.findReduction?_termWaits (by
    rcases operator.text with times | divide <;> simp only [*] <;> decide)
  selects_only wants permitted := Grammar.findReduction?_factor permitted fun symbol top =>
    (by decide : ∀ other ∈ contexts .term, other ∉ (["u+", "u-", "*", "/"] : List Text)) symbol
      (wants symbol top)
  selects_fold operator permitted _ := Grammar.findReduction?_product operator.text permitted
  label_only := by decide
  label_fold operator := by
    rcases operator.text with first | second <;> simp only [*] <;> decide

def sums : Level where
  toLevel := .sums
  IsText operator := operator = "+" ∨ operator = "-"
  terminal isText := terminal_of_notMem (by rcases isText with rfl | rfl <;> decide)
  marked marks isText := marks.isAdditive isText
  operand_ne := by decide
  turns_only _ := rfl
  turns_fold _ _ _ _ := rfl
  wants_operand := Wants.mono (by decide)
  wants_behind operator _ := .cons (by
    rcases operator.text with plus | minus <;> simp only [*] <;> decide)
  follows_operand := canReduce_of_mem rfl rfl (by decide)
  follows_operator operator := by
    rcases operator.text with plus | minus <;> simp only [*] <;> decide
  shiftSymbol_eq operator := by
    rw [shiftSymbol_additive operator]
    exact if_neg (by decide)
  waits _ _ := Grammar.findReduction?_expression
  selects_only wants permitted := Grammar.findReduction?_term permitted fun symbol top =>
    (by decide : ∀ other ∈ contexts .expression, other ∉ (["+", "-"] : List Text)) symbol
      (wants symbol top)
  selects_fold operator permitted _ := Grammar.findReduction?_sum operator.text permitted
  label_only := by decide
  label_fold operator := by
    rcases operator.text with first | second <;> simp only [*] <;> decide

def onlyRule (level : Level) : Rule :=
  ⟨level.whole.symbol, [level.operand.symbol], .pass⟩

def foldRule (level : Level) (operator : Text) : Rule :=
  ⟨level.whole.symbol, [level.whole.symbol, operator, level.operand.symbol], .binary operator⟩

end Level

end ShiftReduce

end Reckon
