import Reckon.Grammar.Nesting
import Reckon.Proofs.Derivations

/-!
# Nesting over derivations

What the pass that counts nesting knows behind the tokens of a derivation: the signs that waited
before it have got their operand, and everything that the derivation opened is closed again. So the
count depends on what stands around a factor and not on what came before it.
-/

set_option autoImplicit false

namespace Reckon.Grammar.Nesting

def after (nesting : Nesting) (tokens : List Token) : Nesting :=
  tokens.foldl next nesting

/-- Whether an operand comes next, so that a plus or minus would be a sign. -/
def AtOperand (nesting : Nesting) : Prop :=
  nesting.previous.all signContext.contains = true

variable {nesting : Nesting} {token : Token}

@[simp] theorem after_nil (nesting : Nesting) : nesting.after [] = nesting := rfl

@[simp] theorem after_cons (nesting : Nesting) (token : Token) (rest : List Token) :
    nesting.after (token :: rest) = (nesting.next token).after rest := rfl

@[simp] theorem after_append (nesting : Nesting) (left right : List Token) :
    nesting.after (left ++ right) = (nesting.after left).after right :=
  List.foldl_append

theorem check_cons (nesting : Nesting) (limit : Int) (token : Token) (rest : List Token) :
    nesting.check limit (token :: rest) =
      if limit < (nesting.next token).depth then .error (.syntactic .tooDeep token.position)
      else (nesting.next token).check limit rest := rfl

theorem check_cons_eq_ok_iff {limit : Int} {rest : List Token} :
    nesting.check limit (token :: rest) = .ok () ↔
      ((nesting.next token).depth : Int) ≤ limit ∧
        (nesting.next token).check limit rest = .ok () := by
  rw [check_cons]
  by_cases deep : limit < ((nesting.next token).depth : Int)
  · simp [deep, Int.not_le.mpr deep]
  · simp [deep, Int.not_lt.mp deep]

theorem check_append_eq_ok_iff {limit : Int} {left right : List Token} :
    nesting.check limit (left ++ right) = .ok () ↔
      nesting.check limit left = .ok () ∧ (nesting.after left).check limit right = .ok () := by
  induction left generalizing nesting with
  | nil => simp [check]
  | cons token rest ih =>
      rw [List.cons_append, check_cons_eq_ok_iff, check_cons_eq_ok_iff, ih, and_assoc, after_cons]

theorem check_append_of_ok {limit : Int} {left right : List Token}
    (allowed : nesting.check limit left = .ok ()) :
    nesting.check limit (left ++ right) = (nesting.after left).check limit right := by
  induction left generalizing nesting with
  | nil => rfl
  | cons token rest ih =>
      obtain ⟨shallow, allowedRest⟩ := check_cons_eq_ok_iff.mp allowed
      rw [List.cons_append, check_cons, if_neg (Int.not_lt.mpr shallow), ih allowedRest, after_cons]

theorem check_append_of_error {limit : Int} {left right : List Token} {fault : Fault}
    (refused : nesting.check limit left = .error fault) :
    nesting.check limit (left ++ right) = .error fault := by
  induction left generalizing nesting with
  | nil => cases refused
  | cons token rest ih =>
      rw [check_cons] at refused
      rw [List.cons_append, check_cons]
      split at refused
      case isTrue deep =>
        rw [if_pos deep]
        exact refused
      case isFalse shallow =>
        rw [if_neg shallow]
        exact ih refused

theorem check_cons_of_le {limit : Nat} {rest : List Token}
    (shallow : (nesting.next token).depth ≤ limit) :
    nesting.check limit (token :: rest) = (nesting.next token).check limit rest := by
  rw [check_cons, if_neg (by omega)]

theorem check_cons_of_lt {limit : Nat} {rest : List Token}
    (deep : limit < (nesting.next token).depth) :
    nesting.check limit (token :: rest) = .error (.syntactic .tooDeep token.position) := by
  rw [check_cons, if_pos (by omega)]

theorem depth_after_le {limit : Nat} {tokens : List Token} (shallow : nesting.depth ≤ limit)
    (allowed : nesting.check limit tokens = .ok ()) : (nesting.after tokens).depth ≤ limit := by
  induction tokens generalizing nesting with
  | nil => exact shallow
  | cons token rest ih =>
      obtain ⟨shallowNext, allowedRest⟩ := check_cons_eq_ok_iff.mp allowed
      exact ih (by omega) allowedRest

theorem start_atOperand : start.AtOperand := rfl

theorem next_sign (atOperand : nesting.AtOperand) (sign : token.IsAdditive) :
    nesting.next token =
      ⟨nesting.depth + 1, nesting.signs + 1, nesting.outer, some token.text⟩ := by
  have signSymbol : isSignSymbol token.text = true := by
    rcases sign.text with plus | minus <;> simp [isSignSymbol, *]
  unfold AtOperand at atOperand
  simp [next, count, sign.symbol, signSymbol, atOperand]

theorem next_additive (behindOperand : ¬ nesting.AtOperand) (operator : token.IsAdditive) :
    nesting.next token = { nesting with previous := some token.text } := by
  unfold AtOperand at behindOperand
  rcases operator.text with plus | minus <;> simp [next, count, operator.symbol, *]

theorem next_multiplicative (operator : token.IsMultiplicative) :
    nesting.next token = { nesting with previous := some token.text } := by
  rcases operator.text with times | divide <;>
    simp [next, count, operator.symbol, isSignSymbol, *]

theorem next_numeral (numeral : token.IsNumeral) :
    nesting.next token =
      ⟨nesting.depth - nesting.signs, 0, nesting.outer, some "NUMBER"⟩ := by
  simp [next, count, numeral.symbol, isSignSymbol]

theorem next_opening (opening : token.IsOpening) :
    nesting.next token =
      ⟨nesting.depth + 1, 0, nesting.signs :: nesting.outer, some "("⟩ := by
  simp [next, count, opening.symbol, isSignSymbol]

theorem next_closing (closing : token.IsClosing) {signs : Nat} {outer : List Nat}
    (opened : nesting.outer = signs :: outer) :
    nesting.next token =
      ⟨nesting.depth - (nesting.signs + 1 + signs), 0, outer, some ")"⟩ := by
  simp [next, count, closing.symbol, isSignSymbol, opened]

theorem next_endOfInput (isLast : token.kind = .endOfInput) :
    nesting.next token = { nesting with previous := some endMark } := by
  have other : isSignSymbol endMark = false ∧ (endMark == ("(" : Text)) = false ∧
      (endMark == ("NUMBER" : Text)) = false ∧ (endMark == (")" : Text)) = false := by decide
  obtain ⟨notSign, notOpening, notNumeral, notClosing⟩ := other
  simp [next, count, Token.symbol_of_kind_endOfInput isLast, notSign, notOpening, notNumeral,
    notClosing]

theorem atOperand_of_additive (operator : token.IsAdditive) {depth signs : Nat} {outer : List Nat} :
    AtOperand ⟨depth, signs, outer, some token.text⟩ := by
  rcases operator.text with plus | minus <;> simp only [AtOperand, *] <;> decide

theorem atOperand_of_multiplicative (operator : token.IsMultiplicative) {depth signs : Nat}
    {outer : List Nat} : AtOperand ⟨depth, signs, outer, some token.text⟩ := by
  rcases operator.text with times | divide <;> simp only [AtOperand, *] <;> decide

/-- The counts where an operand has just ended: no sign waits, and an operator may follow. -/
structure Settled (depth : Nat) (outer : List Nat) (nesting : Nesting) : Prop where
  depth_eq : nesting.depth = depth
  signs_eq : nesting.signs = 0
  outer_eq : nesting.outer = outer
  behindOperand : ¬ nesting.AtOperand

/-- Behind a derivation the signs that waited before it are done, and nothing else has changed. -/
theorem after_derivation {nonterminal : Nonterminal} (derivation : Derivation nonterminal)
    (nesting : Nesting) (atOperand : nesting.AtOperand) :
    Settled (nesting.depth - nesting.signs) nesting.outer (nesting.after derivation.tokens) := by
  induction derivation generalizing nesting with
  | numeral token isNumeral =>
      rw [Derivation.tokens, after_cons, next_numeral isNumeral]
      exact ⟨rfl, rfl, rfl, (by decide : ¬ signContext.contains "NUMBER" = true)⟩
  | group opening closing opens closes inner ih =>
      rw [Derivation.tokens, after_cons, after_append, next_opening opens, after_cons]
      obtain ⟨depth, signs, outer, -⟩ :=
        ih ⟨nesting.depth + 1, 0, nesting.signs :: nesting.outer, some "("⟩ rfl
      rw [next_closing closes outer, depth, signs]
      refine ⟨?_, rfl, rfl, (by decide : ¬ signContext.contains ")" = true)⟩
      change nesting.depth + 1 - 0 - (0 + 1 + nesting.signs) = nesting.depth - nesting.signs
      omega
  | signed sign isSign operand ih =>
      rw [Derivation.tokens, after_cons, next_sign atOperand isSign]
      have settled := ih ⟨nesting.depth + 1, nesting.signs + 1, nesting.outer, some sign.text⟩
        (atOperand_of_additive isSign)
      simpa using settled
  | single _ ih => exact ih nesting atOperand
  | product left operator isOperator right leftIH rightIH =>
      obtain ⟨depth, signs, outer, -⟩ := leftIH nesting atOperand
      have settled := rightIH { nesting.after left.tokens with previous := some operator.text }
        (atOperand_of_multiplicative isOperator)
      rw [Derivation.tokens, after_append, after_cons, next_multiplicative isOperator]
      simpa only [depth, signs, outer, Nat.sub_zero] using settled
  | alone _ ih => exact ih nesting atOperand
  | sum left operator isOperator right leftIH rightIH =>
      obtain ⟨depth, signs, outer, behindOperand⟩ := leftIH nesting atOperand
      have settled := rightIH { nesting.after left.tokens with previous := some operator.text }
        (atOperand_of_additive isOperator)
      rw [Derivation.tokens, after_append, after_cons, next_additive behindOperand isOperator]
      simpa only [depth, signs, outer, Nat.sub_zero] using settled

end Reckon.Grammar.Nesting
