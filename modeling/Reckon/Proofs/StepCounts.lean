import Reckon.Proofs.Constructions

/-!
# How many steps a source takes

The lengths of the logs of an accepted source, and the least cap that accepts it, are sums over its
tokens. What counts is the role of each token, which the token before it decides.
-/

set_option autoImplicit false

namespace Reckon

/-- What a token does in an expression. -/
inductive Role where
  | numeral
  | sign
  | sum
  | product
  | opening
  | closing
  | ending
deriving DecidableEq

def Role.endsOperand : Role → Bool
  | .numeral | .closing => true
  | _ => false

namespace Token

/-- The role of a token. A plus or minus is an operator behind an operand and a sign elsewhere. -/
def role (behindOperand : Bool) (token : Token) : Role :=
  match token.kind with
  | .number => .numeral
  | .leftParenthesis => .opening
  | .rightParenthesis => .closing
  | .endOfInput => .ending
  | .operator =>
    if Grammar.isSignSymbol token.text then if behindOperand then .sum else .sign else .product

def rolesFrom (behindOperand : Bool) : List Token → List Role
  | [] => []
  | token :: rest =>
    token.role behindOperand :: rolesFrom (token.role behindOperand).endsOperand rest

def countRole (role : Role) (tokens : List Token) : Nat :=
  (rolesFrom false tokens).count role

variable {token : Token} {behindOperand : Bool}

theorem IsNumeral.role_eq (numeral : token.IsNumeral) : token.role behindOperand = .numeral := by
  simp [role, numeral.kind]

theorem IsOpening.role_eq (opening : token.IsOpening) : token.role behindOperand = .opening := by
  simp [role, opening.kind]

theorem IsClosing.role_eq (closing : token.IsClosing) : token.role behindOperand = .closing := by
  simp [role, closing.kind]

theorem IsMultiplicative.role_eq (operator : token.IsMultiplicative) :
    token.role behindOperand = .product := by
  rcases operator.text with times | divide <;>
    simp [role, operator.kind, Grammar.isSignSymbol, *]

theorem IsAdditive.isSignSymbol_text (additive : token.IsAdditive) :
    Grammar.isSignSymbol token.text = true := by
  rcases additive.text with plus | minus <;> simp [Grammar.isSignSymbol, *]

theorem IsAdditive.role_behind (additive : token.IsAdditive) : token.role true = .sum := by
  simp [role, additive.kind, additive.isSignSymbol_text]

theorem IsAdditive.role_front (additive : token.IsAdditive) : token.role false = .sign := by
  simp [role, additive.kind, additive.isSignSymbol_text]

end Token

namespace Derivation

variable {nonterminal : Nonterminal}

def roles {nonterminal : Nonterminal} : Derivation nonterminal → List Role
  | .numeral _ _ => [.numeral]
  | .group _ _ _ _ inner => .opening :: (inner.roles ++ [.closing])
  | .signed _ _ operand => .sign :: operand.roles
  | .single factor => factor.roles
  | .product left _ _ right => left.roles ++ .product :: right.roles
  | .alone term => term.roles
  | .sum left _ _ right => left.roles ++ .sum :: right.roles

attribute [local simp] roles Token.rolesFrom Role.endsOperand

/-- Where an operand is wanted the tokens of a derivation have their roles in it, and behind them an
operand has ended. -/
theorem rolesFrom_tokens (derivation : Derivation nonterminal) (rest : List Token) :
    Token.rolesFrom false (derivation.tokens ++ rest) =
      derivation.roles ++ Token.rolesFrom true rest := by
  induction derivation generalizing rest with
  | numeral token isNumeral =>
      simp [tokens, isNumeral.role_eq]
  | group opening closing opens closes inner ih =>
      simp [tokens, opens.role_eq, closes.role_eq, ih]
  | signed sign isSign operand ih =>
      simp [tokens, isSign.role_front, ih]
  | single _ ih => exact ih rest
  | product left operator isOperator right leftIH rightIH =>
      simp [tokens, isOperator.role_eq, leftIH, rightIH]
  | alone _ ih => exact ih rest
  | sum left operator isOperator right leftIH rightIH =>
      simp [tokens, isOperator.role_behind, leftIH, rightIH]

theorem Spans.countRole_eq {derivation : Derivation .expression} {tokens : List Token}
    (spans : derivation.Spans tokens) {role : Role} (other : role ≠ .ending) :
    Token.countRole role tokens = derivation.roles.count role := by
  obtain ⟨last, isLast, rfl⟩ := spans
  have ends : Token.rolesFrom true [last] = [.ending] := by
    simp [Token.role, isLast]
  rw [Token.countRole, rolesFrom_tokens, ends, List.count_append]
  simp [other.symm]

theorem count_numeral (derivation : Derivation nonterminal) :
    derivation.roles.count .numeral =
      derivation.roles.count .sum + derivation.roles.count .product + 1 := by
  induction derivation with
  | numeral => rfl
  | group _ _ _ _ _ ih | signed _ _ _ ih | single _ ih | alone _ ih => simpa using ih
  | product _ _ _ _ leftIH rightIH | sum _ _ _ _ leftIH rightIH =>
      simp [leftIH, rightIH]
      omega

theorem count_closing (derivation : Derivation nonterminal) :
    derivation.roles.count .closing = derivation.roles.count .opening := by
  induction derivation with
  | numeral => rfl
  | group _ _ _ _ _ ih | signed _ _ _ ih | single _ ih | alone _ ih => simpa using ih
  | product _ _ _ _ leftIH rightIH | sum _ _ _ _ leftIH rightIH =>
      simp [leftIH, rightIH]

theorem turns_add_three (derivation : Derivation nonterminal) :
    derivation.turns + 3 =
      4 * derivation.roles.count .numeral + 5 * derivation.roles.count .opening +
        2 * derivation.roles.count .sign + derivation.roles.count .sum +
          Descent.height nonterminal := by
  induction derivation with
  | numeral => rfl
  | group _ _ _ _ _ ih | signed _ _ _ ih | single _ ih | alone _ ih =>
      simp [turns, Descent.height] at ih ⊢
      omega
  | product _ _ _ _ leftIH rightIH | sum _ _ _ _ leftIH rightIH =>
      simp [turns, Descent.height] at leftIH rightIH ⊢
      omega

theorem notes_add_two (derivation : Derivation nonterminal) :
    derivation.notes + 2 =
      3 * derivation.roles.count .numeral + 5 * derivation.roles.count .opening +
        2 * derivation.roles.count .sign + derivation.roles.count .sum +
          Descent.height nonterminal := by
  induction derivation with
  | numeral => rfl
  | group _ _ _ _ _ ih | signed _ _ _ ih | single _ ih | alone _ ih =>
      simp [notes, Descent.height] at ih ⊢
      omega
  | product _ _ _ _ leftIH rightIH | sum _ _ _ _ leftIH rightIH =>
      simp [notes, Descent.height] at leftIH rightIH ⊢
      omega

end Derivation

open Token (countRole)

variable {tokens : List Token} {derivation : Derivation .expression} {parsed : Parsed}

theorem Descent.length_steps (accepted : parse tokens = .ok parsed)
    (spans : derivation.Spans tokens) : parsed.steps.length = derivation.notes + 2 := by
  obtain ⟨after, steps, -, noted⟩ := exists_of_parse_ok accepted spans
  rw [steps, StepLog.length_toList]
  exact noted

namespace ShiftReduce

variable {machine next : ShiftReduce} {rules : List Rule} {turns : Nat} {cap? : Option Int}

def noted (machine : ShiftReduce) : Nat :=
  machine.log.size

theorem noted_accepted (machine : ShiftReduce) : machine.accepted.noted = machine.noted + 1 :=
  machine.log.size_record ..

theorem Turned.noted_eq (turned : Turned rules machine next) : next.noted = machine.noted + 1 := by
  cases turned with
  | reduced => exact machine.log.size_record ..
  | shifted => exact machine.log.size_record ..

theorem Reaches.noted_eq (reaches : Reaches rules turns machine next) :
    next.noted = machine.noted + turns := by
  induction reaches with
  | refl => rfl
  | turn turned _ ih =>
      rw [ih, turned.noted_eq]
      omega

theorem length_steps (accepted : parse tokens cap? = .ok parsed)
    (spans : derivation.Spans tokens) : parsed.steps.length = derivation.turns + 2 := by
  obtain ⟨folded, -, reaches, -, -, steps⟩ := exists_folded accepted spans
  have noted := reaches.noted_eq
  have opened : (opening tokens).noted = 1 := rfl
  rw [steps, StepLog.length_toList]
  change folded.accepted.noted = derivation.turns + 2
  rw [noted_accepted]
  omega

theorem turns_lt_of_accepted (accepted : parse tokens cap? = .ok parsed)
    (spans : derivation.Spans tokens) : derivation.turns < allowance tokens cap? := by
  obtain ⟨-, -, after, done, -⟩ := exists_of_parseWith_ok accepted
  obtain ⟨turns, last, below, reaches, accepts⟩ := exists_of_run_ok done
  obtain ⟨folded, tree, reachesFolded, folds, -, -⟩ := exists_folded accepted spans
  obtain ⟨_, _, _, _, _, rfl⟩ := exists_of_turn_accepts accepts
  -- Both ways end alike, so their logs have the same length.
  have same := congrArg noted (eq_of_accepts reaches accepts reachesFolded folds)
  rw [noted_accepted, noted_accepted, reaches.noted_eq, reachesFolded.noted_eq] at same
  omega

/-- A cap lets the machine accept a stream when it leaves a turn behind those along the
derivation. -/
theorem isOk_parse_iff (accepted : parse tokens cap? = .ok parsed)
    (spans : derivation.Spans tokens) (other? : Option Int) :
    (parse tokens other?).isOk = true ↔ derivation.turns < allowance tokens other? := by
  constructor
  · intro returns
    obtain ⟨again, acceptedAgain⟩ := exists_of_isOk returns
    exact turns_lt_of_accepted acceptedAgain spans
  · intro below
    obtain ⟨-, allowed, -⟩ := exists_of_parseWith_ok accepted
    obtain ⟨folded, tree, reaches, folds, -, -⟩ := exists_folded accepted spans
    rw [parse_of_allowed spans.wellFormed allowed, run_of_accepts reaches below folds]
    rfl

end ShiftReduce

/-- The lengths of both logs of an accepted source, and the least cap that accepts it, are exact
sums over its numerals, parenthesis pairs, signs and binary operators. The machine takes one step
more than the descent for each binary operator. -/
theorem step_counts {source : Text} (lexed : Token.tokenize source = .ok tokens)
    (accepts : ∃ strategy : Strategy, (strategy.parse tokens none).isOk = true) :
    ∃ topDown bottomUp, Descent.parse tokens = .ok topDown ∧
      ShiftReduce.parse tokens none = .ok bottomUp ∧
      topDown.steps.length = 3 * countRole .numeral tokens + 5 * countRole .opening tokens +
        2 * countRole .sign tokens + countRole .sum tokens + 3 ∧
      bottomUp.steps.length = 4 * countRole .numeral tokens + 5 * countRole .opening tokens +
        2 * countRole .sign tokens + countRole .sum tokens + 2 ∧
      bottomUp.steps.length + 1 = topDown.steps.length + countRole .numeral tokens ∧
      countRole .numeral tokens = countRole .sum tokens + countRole .product tokens + 1 ∧
      countRole .closing tokens = countRole .opening tokens ∧
      ∀ cap : Int, (ShiftReduce.parse tokens (some cap)).isOk = true ↔
        4 * (countRole .numeral tokens : Int) + 5 * countRole .opening tokens +
          2 * countRole .sign tokens + countRole .sum tokens + 1 ≤ cap := by
  have wellFormed := Token.tokenize_wellFormed lexed
  obtain ⟨strategy, returns⟩ := accepts
  obtain ⟨parsed, accepted⟩ := exists_of_isOk returns
  have follows := strategy.parse_followsGrammar wellFormed
  obtain ⟨topDown, descended, -⟩ :=
    follows.exists_of_ok (Strategy.topDown.parse_followsGrammar wellFormed) accepted
  obtain ⟨bottomUp, folded, -⟩ :=
    follows.exists_of_ok (Strategy.bottomUp.parse_followsGrammar wellFormed) accepted
  obtain ⟨derivation, spans⟩ := (follows.reads accepted).generated
  have notes := derivation.notes_add_two
  have turns := derivation.turns_add_three
  have operators := derivation.count_numeral
  have pairs := derivation.count_closing
  have descentSteps := Descent.length_steps descended spans
  have machineSteps := ShiftReduce.length_steps folded spans
  have capped := ShiftReduce.isOk_parse_iff folded spans
  simp only [Descent.height] at notes turns
  simp only [spans.countRole_eq, ne_eq, reduceCtorEq, not_false_eq_true]
  refine ⟨topDown, bottomUp, descended, folded, by omega, by omega, by omega, operators, pairs, ?_⟩
  intro cap
  rw [capped, ShiftReduce.allowance, Option.getD_some]
  omega

theorem signedProduct_step_counts :
    ∃ topDown bottomUp, Descent.parse ShiftReduce.signedProduct = .ok topDown ∧
      ShiftReduce.parse ShiftReduce.signedProduct none = .ok bottomUp ∧
      topDown.steps.length = 20 ∧ bottomUp.steps.length = 22 ∧
      ∀ cap : Int, (ShiftReduce.parse ShiftReduce.signedProduct (some cap)).isOk = true ↔
        21 ≤ cap := by
  have lexed : Token.tokenize "-(1+2)*3" = .ok ShiftReduce.signedProduct := by decide +kernel
  have accepts : (Strategy.topDown.parse ShiftReduce.signedProduct none).isOk = true := by
    decide +kernel
  obtain ⟨topDown, bottomUp, descended, folded, descentSteps, machineSteps, -, -, -, capped⟩ :=
    step_counts lexed ⟨_, accepts⟩
  exact ⟨topDown, bottomUp, descended, folded, descentSteps, machineSteps, capped⟩

end Reckon
