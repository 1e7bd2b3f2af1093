import Reckon.Proofs.Evaluations
import Reckon.Proofs.StepLogs
import Reckon.Proofs.Streams

/-!
# The grammar of expressions

Derivations of the grammar

    expression := expression (+|-) term | term
    term       := term (*|/) factor | factor
    factor     := numeral | ( expression ) | (+|-) factor

as trees of their own, said without any parser. A derivation has the tokens that it derives and a
tree as its meaning: operations fold to the left, and parentheses leave no node. `outcome` is what a
reader from left to right makes of it, who stops at the first numeral beyond the finite doubles, and
`postorder` is what such a reader has completed when.
-/

set_option autoImplicit false

namespace Reckon

inductive Nonterminal where
  | expression
  | term
  | factor
deriving DecidableEq

/-- The symbol of a nonterminal in a rule and on a stack. -/
def Nonterminal.symbol : Nonterminal → Text
  | .expression => "E"
  | .term => "T"
  | .factor => "F"

/-- The derivations from a nonterminal, one constructor for each production. -/
inductive Derivation : Nonterminal → Type where
  | numeral (token : Token) (isNumeral : token.IsNumeral) : Derivation .factor
  | group (opening closing : Token) (opens : opening.IsOpening) (closes : closing.IsClosing)
      (inner : Derivation .expression) : Derivation .factor
  | signed (sign : Token) (isSign : sign.IsAdditive) (operand : Derivation .factor) :
      Derivation .factor
  | single (factor : Derivation .factor) : Derivation .term
  | product (left : Derivation .term) (operator : Token) (isOperator : operator.IsMultiplicative)
      (right : Derivation .factor) : Derivation .term
  | alone (term : Derivation .term) : Derivation .expression
  | sum (left : Derivation .expression) (operator : Token) (isOperator : operator.IsAdditive)
      (right : Derivation .term) : Derivation .expression

namespace Derivation

variable {nonterminal : Nonterminal}

def tokens {nonterminal : Nonterminal} : Derivation nonterminal → List Token
  | .numeral token _ => [token]
  | .group opening closing _ _ inner => opening :: (inner.tokens ++ [closing])
  | .signed sign _ operand => sign :: operand.tokens
  | .single factor => factor.tokens
  | .product left operator _ right => left.tokens ++ operator :: right.tokens
  | .alone term => term.tokens
  | .sum left operator _ right => left.tokens ++ operator :: right.tokens

/-- The meaning of a derivation. -/
def tree {nonterminal : Nonterminal} : Derivation nonterminal → Tree Text
  | .numeral token _ => .number token.value
  | .group _ _ _ _ inner => inner.tree
  | .signed sign _ operand => .unary sign.text operand.tree
  | .single factor => factor.tree
  | .product left operator _ right => .binary operator.text left.tree right.tree
  | .alone term => term.tree
  | .sum left operator _ right => .binary operator.text left.tree right.tree

/-- The meaning of a derivation, when the numerals are read from left to right. -/
def outcome {nonterminal : Nonterminal} : Derivation nonterminal → Except Fault (Tree Text)
  | .numeral token _ => token.number
  | .group _ _ _ _ inner => inner.outcome
  | .signed sign _ operand => do return .unary sign.text (← operand.outcome)
  | .single factor => factor.outcome
  | .product left operator _ right => do
    let leftTree ← left.outcome
    let rightTree ← right.outcome
    return .binary operator.text leftTree rightTree
  | .alone term => term.outcome
  | .sum left operator _ right => do
    let leftTree ← left.outcome
    let rightTree ← right.outcome
    return .binary operator.text leftTree rightTree

/-- The productions of a derivation, children first, each with the texts that are left to read when
it is complete. The texts behind the derivation are given. -/
def postorder {nonterminal : Nonterminal} :
    Derivation nonterminal → List Text → List Construction
  | .numeral _ _, rest => [⟨some "F → NUMBER", rest⟩]
  | .group _ closing _ _ inner, rest =>
    inner.postorder (closing.shown :: rest) ++ [⟨some "F → ( E )", rest⟩]
  | .signed sign _ operand, rest =>
    operand.postorder rest ++ [⟨some ("F → u" ++ sign.text ++ " F"), rest⟩]
  | .single factor, rest => factor.postorder rest ++ [⟨some "T → F", rest⟩]
  | .product left operator _ right, rest =>
    left.postorder (operator.shown :: (right.tokens.map Token.shown ++ rest)) ++
      (right.postorder rest ++ [⟨some ("T → T " ++ operator.text ++ " F"), rest⟩])
  | .alone term, rest => term.postorder rest ++ [⟨some "E → T", rest⟩]
  | .sum left operator _ right, rest =>
    left.postorder (operator.shown :: (right.tokens.map Token.shown ++ rest)) ++
      (right.postorder rest ++ [⟨some ("E → E " ++ operator.text ++ " T"), rest⟩])

/-- The productions that build something, children first. -/
def built (derivation : Derivation nonterminal) (rest : List Text) : List Construction :=
  (derivation.postorder rest).filter fun construction => !construction.isUnit

theorem built_numeral {token : Token} (isNumeral : token.IsNumeral) (rest : List Text) :
    (numeral token isNumeral).built rest = [⟨some "F → NUMBER", rest⟩] := by
  have builds : Construction.isUnit ⟨some "F → NUMBER", rest⟩ = false := by
    simp only [Construction.isUnit]
    decide
  rw [built, postorder, List.filter_singleton, builds]
  rfl

theorem built_group {opening closing : Token} (opens : opening.IsOpening)
    (closes : closing.IsClosing) (inner : Derivation .expression) (rest : List Text) :
    (group opening closing opens closes inner).built rest =
      inner.built (closing.shown :: rest) ++ [⟨some "F → ( E )", rest⟩] := by
  have builds : Construction.isUnit ⟨some "F → ( E )", rest⟩ = false := by
    simp only [Construction.isUnit]
    decide
  rw [built, postorder, List.filter_append, List.filter_singleton, builds, built]
  rfl

theorem built_signed {sign : Token} (isSign : sign.IsAdditive) (operand : Derivation .factor)
    (rest : List Text) :
    (signed sign isSign operand).built rest =
      operand.built rest ++ [⟨some ("F → u" ++ sign.text ++ " F"), rest⟩] := by
  have builds : Construction.isUnit ⟨some ("F → u" ++ sign.text ++ " F"), rest⟩ = false := by
    simp only [Construction.isUnit]
    rcases isSign.text with plus | minus <;> simp only [*] <;> decide
  rw [built, postorder, List.filter_append, List.filter_singleton, builds, built]
  rfl

theorem tokens_ne_nil (derivation : Derivation nonterminal) : derivation.tokens ≠ [] := by
  induction derivation with
  | numeral _ _ => simp [tokens]
  | group _ _ _ _ _ _ => simp [tokens]
  | signed _ _ _ _ => simp [tokens]
  | single _ ih => exact ih
  | product _ _ _ _ _ _ => simp [tokens]
  | alone _ ih => exact ih
  | sum _ _ _ _ _ _ => simp [tokens]

theorem isLexeme_of_mem {derivation : Derivation nonterminal} {token : Token}
    (member : token ∈ derivation.tokens) : token.IsLexeme := by
  induction derivation with
  | numeral _ isNumeral =>
      obtain rfl := List.mem_singleton.mp member
      exact .numeral isNumeral
  | group opening closing opens closes _ ih =>
      simp only [tokens, List.mem_cons, List.mem_append, List.not_mem_nil, or_false] at member
      rcases member with rfl | inInner | rfl
      · exact .opening opens
      · exact ih inInner
      · exact .closing closes
  | signed sign isSign _ ih =>
      rcases List.mem_cons.mp member with rfl | inOperand
      · exact .additive isSign
      · exact ih inOperand
  | single _ ih => exact ih member
  | product _ operator isOperator _ leftIH rightIH =>
      simp only [tokens, List.mem_append, List.mem_cons] at member
      rcases member with inLeft | rfl | inRight
      · exact leftIH inLeft
      · exact .multiplicative isOperator
      · exact rightIH inRight
  | alone _ ih => exact ih member
  | sum _ operator isOperator _ leftIH rightIH =>
      simp only [tokens, List.mem_append, List.mem_cons] at member
      rcases member with inLeft | rfl | inRight
      · exact leftIH inLeft
      · exact .additive isOperator
      · exact rightIH inRight

/-- Stops at the first numeral beyond the finite doubles. -/
def checkNumerals (tokens : List Token) : Except Fault Unit :=
  match tokens.find? Token.isUnbounded with
  | none => .ok ()
  | some token => .error (.syntactic (.unboundedNumeral token.text) token.position)

theorem checkNumerals_singleton (token : Token) :
    checkNumerals [token] =
      if token.isUnbounded then .error (.syntactic (.unboundedNumeral token.text) token.position)
      else .ok () := by
  cases unbounded : token.isUnbounded <;> simp [checkNumerals, unbounded]

theorem checkNumerals_append (left right : List Token) :
    checkNumerals (left ++ right) = (checkNumerals left >>= fun _ => checkNumerals right) := by
  cases found : left.find? Token.isUnbounded <;>
    simp [checkNumerals, List.find?_append, found, bind, Except.bind]

theorem checkNumerals_cons {token : Token} (bounded : token.isUnbounded = false)
    (rest : List Token) : checkNumerals (token :: rest) = checkNumerals rest := by
  simp [checkNumerals, bounded]

theorem checkNumerals_eq_ok_iff {tokens : List Token} :
    checkNumerals tokens = .ok () ↔ ∀ token ∈ tokens, token.isUnbounded = false := by
  cases found : tokens.find? Token.isUnbounded with
  | none => simpa [checkNumerals, found] using List.find?_eq_none.mp found
  | some token =>
      simp only [checkNumerals, found, reduceCtorEq, false_iff]
      intro bounded
      have unbounded := List.find?_some found
      simp [bounded token (List.mem_of_find?_eq_some found)] at unbounded

/-- A reader from left to right stops at the first numeral beyond the finite doubles, and finds the
meaning when there is none. -/
theorem outcome_eq (derivation : Derivation nonterminal) :
    derivation.outcome = (checkNumerals derivation.tokens).map fun _ => derivation.tree := by
  induction derivation with
  | numeral token isNumeral =>
      rw [outcome, tokens, tree, checkNumerals_singleton, isNumeral.number_eq]
      split <;> rfl
  | group opening closing opens closes inner ih =>
      rw [outcome, tokens, tree, checkNumerals_cons opens.isUnbounded_eq_false,
        checkNumerals_append, checkNumerals_singleton, closes.isUnbounded_eq_false, ih]
      cases checkNumerals inner.tokens <;> rfl
  | signed sign isSign operand ih =>
      rw [outcome, tokens, tree, checkNumerals_cons isSign.isUnbounded_eq_false, ih]
      cases checkNumerals operand.tokens <;> rfl
  | single _ ih => exact ih
  | product left operator isOperator right leftIH rightIH =>
      rw [outcome, tokens, tree, checkNumerals_append,
        checkNumerals_cons isOperator.isUnbounded_eq_false, leftIH, rightIH]
      cases checkNumerals left.tokens <;> cases checkNumerals right.tokens <;> rfl
  | alone _ ih => exact ih
  | sum left operator isOperator right leftIH rightIH =>
      rw [outcome, tokens, tree, checkNumerals_append,
        checkNumerals_cons isOperator.isUnbounded_eq_false, leftIH, rightIH]
      cases checkNumerals left.tokens <;> cases checkNumerals right.tokens <;> rfl

theorem tree_isLegal {derivation : Derivation nonterminal}
    (bounded : ∀ token ∈ derivation.tokens, token.isUnbounded = false) :
    derivation.tree.IsLegal := by
  induction derivation with
  | numeral token isNumeral =>
      refine .number ?_
      have finite := bounded token (by simp [tokens])
      simpa [Token.isUnbounded, isNumeral.kind] using finite
  | group _ _ _ _ _ ih => exact ih fun token member => bounded token (by simp [tokens, member])
  | signed _ isSign _ ih =>
      exact .unary isSign.text (ih fun token member => bounded token (by simp [tokens, member]))
  | single _ ih => exact ih bounded
  | product _ _ isOperator _ leftIH rightIH =>
      exact .binary (.inr (.inr isOperator.text))
        (leftIH fun token member => bounded token (by simp [tokens, member]))
        (rightIH fun token member => bounded token (by simp [tokens, member]))
  | alone _ ih => exact ih bounded
  | sum _ _ isOperator _ leftIH rightIH =>
      exact .binary (by rcases isOperator.text with plus | minus <;> simp [*])
        (leftIH fun token member => bounded token (by simp [tokens, member]))
        (rightIH fun token member => bounded token (by simp [tokens, member]))

end Derivation

/-- A level of the grammar whose operators fold to the left: one operand, or an operator between
what was read and one more operand. -/
structure Level where
  whole : Nonterminal
  operand : Nonterminal
  IsOperator : Token → Prop
  only : Derivation operand → Derivation whole
  fold : Derivation whole → (operator : Token) → IsOperator operator → Derivation operand →
    Derivation whole
  unit : Text
  rule : Text → Text
  isLexeme : ∀ {token : Token}, IsOperator token → token.IsLexeme
  symbol_eq : ∀ {token : Token}, IsOperator token → token.symbol = token.text
  tokens_only : ∀ derivation, (only derivation).tokens = derivation.tokens
  outcome_only : ∀ derivation, (only derivation).outcome = derivation.outcome
  tokens_fold : ∀ left operator isOperator right,
    (fold left operator isOperator right).tokens = left.tokens ++ operator :: right.tokens
  outcome_fold : ∀ left operator isOperator right,
    (fold left operator isOperator right).outcome = do
      let leftTree ← left.outcome
      let rightTree ← right.outcome
      return .binary operator.text leftTree rightTree
  postorder_only : ∀ derivation rest,
    (only derivation).postorder rest = derivation.postorder rest ++ [⟨some unit, rest⟩]
  postorder_fold : ∀ left operator isOperator right rest,
    (fold left operator isOperator right).postorder rest =
      left.postorder (operator.shown :: (right.tokens.map Token.shown ++ rest)) ++
        (right.postorder rest ++ [⟨some (rule operator.text), rest⟩])
  isUnit_unit : ∀ rest, Construction.isUnit ⟨some unit, rest⟩ = true
  isUnit_rule : ∀ {operator : Token}, IsOperator operator → ∀ rest,
    Construction.isUnit ⟨some (rule operator.text), rest⟩ = false

namespace Level

def products : Level where
  whole := .term
  operand := .factor
  IsOperator := Token.IsMultiplicative
  only := .single
  fold := .product
  unit := "T → F"
  rule operator := "T → T " ++ operator ++ " F"
  isLexeme := .multiplicative
  symbol_eq := Token.IsMultiplicative.symbol
  tokens_only _ := rfl
  outcome_only _ := rfl
  tokens_fold _ _ _ _ := rfl
  outcome_fold _ _ _ _ := rfl
  postorder_only _ _ := rfl
  postorder_fold _ _ _ _ _ := rfl
  isUnit_unit _ := by
    simp only [Construction.isUnit]
    decide
  isUnit_rule operator _ := by
    simp only [Construction.isUnit]
    rcases operator.text with first | second <;> simp only [*] <;> decide

def sums : Level where
  whole := .expression
  operand := .term
  IsOperator := Token.IsAdditive
  only := .alone
  fold := .sum
  unit := "E → T"
  rule operator := "E → E " ++ operator ++ " T"
  isLexeme := .additive
  symbol_eq := Token.IsAdditive.symbol
  tokens_only _ := rfl
  outcome_only _ := rfl
  tokens_fold _ _ _ _ := rfl
  outcome_fold _ _ _ _ := rfl
  postorder_only _ _ := rfl
  postorder_fold _ _ _ _ _ := rfl
  isUnit_unit _ := by
    simp only [Construction.isUnit]
    decide
  isUnit_rule operator _ := by
    simp only [Construction.isUnit]
    rcases operator.text with first | second <;> simp only [*] <;> decide

theorem built_only (level : Level) (operand : Derivation level.operand) (rest : List Text) :
    (level.only operand).built rest = operand.built rest := by
  rw [Derivation.built, level.postorder_only, List.filter_append, List.filter_singleton,
    level.isUnit_unit, Derivation.built]
  simp

theorem built_fold (level : Level) (left : Derivation level.whole) {operator : Token}
    (isOperator : level.IsOperator operator) (right : Derivation level.operand)
    (rest : List Text) :
    (level.fold left operator isOperator right).built rest =
      left.built (operator.shown :: (right.tokens.map Token.shown ++ rest)) ++
        (right.built rest ++ [⟨some (level.rule operator.text), rest⟩]) := by
  rw [Derivation.built, level.postorder_fold, List.filter_append, List.filter_append,
    List.filter_singleton, level.isUnit_rule isOperator, Derivation.built, Derivation.built]
  rfl

end Level

end Reckon
