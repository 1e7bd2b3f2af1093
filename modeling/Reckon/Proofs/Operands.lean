import Reckon.Proofs.Prefixes

/-!
# Where an operand is wanted

A plus or minus is a sign where an operand is wanted: at the start of a stream, behind an opening
parenthesis and behind an operator. This is said of the tokens in front of it alone. The pass that
counts nesting and the parsers find it out in ways of their own.
-/

set_option autoImplicit false

namespace Reckon

open Grammar (Nesting isSignSymbol signContext)

/-- Whether an operand is wanted behind some tokens, by the last one of them. -/
def wantsOperand (front : List Token) : Bool :=
  front.getLast?.all fun previous =>
    previous.kind == .leftParenthesis || previous.kind == .operator

/-- The symbol of a token behind others, in which a sign is told from an operator. -/
def markedSymbol (front : List Token) (token : Token) : Text :=
  if isSignSymbol token.symbol && wantsOperand front then "u" ++ token.symbol else token.symbol

/-- The symbols of tokens that stand behind others. -/
def markedSymbols : List Token → List Token → List Text
  | _, [] => []
  | front, token :: rest => markedSymbol front token :: markedSymbols (front ++ [token]) rest

variable {token : Token} {front : List Token}

theorem wantsOperand_concat (front : List Token) (token : Token) :
    wantsOperand (front ++ [token]) =
      (token.kind == .leftParenthesis || token.kind == .operator) := by
  rw [wantsOperand, List.getLast?_concat, Option.all_some]

theorem wantsOperand_iff (front : List Token) :
    wantsOperand front = true ↔ front = [] ∨ ∃ before previous, front = before ++ [previous] ∧
      (previous.kind = .leftParenthesis ∨ previous.kind = .operator) := by
  rcases List.eq_nil_or_concat front with rfl | ⟨before, previous, rfl⟩
  · exact iff_of_true rfl (.inl rfl)
  · rw [List.concat_eq_append, wantsOperand_concat, Bool.or_eq_true, beq_iff_eq, beq_iff_eq]
    constructor
    · intro known
      exact .inr ⟨before, previous, rfl, known⟩
    · rintro (nothing | ⟨other, last, same, known⟩)
      · simp at nothing
      · obtain ⟨-, isLast⟩ := List.append_inj' same rfl
        obtain rfl := List.singleton_inj.mp isLast
        exact known

theorem markedSymbol_additive (additive : token.IsAdditive) (front : List Token) :
    markedSymbol front token = if wantsOperand front then "u" ++ token.text else token.text := by
  have signSymbol : isSignSymbol token.text = true := by
    rcases additive.text with plus | minus <;> simp [isSignSymbol, *]
  rw [markedSymbol, additive.symbol, signSymbol, Bool.true_and]

/-- Behind a lexeme the grammar takes a plus or minus for a sign if the lexeme is an opening
parenthesis or an operator. -/
theorem Token.IsLexeme.inSignContext (lexeme : token.IsLexeme) :
    signContext.contains token.symbol =
      (token.kind == .leftParenthesis || token.kind == .operator) := by
  cases lexeme with
  | numeral numeral =>
      rw [numeral.symbol, numeral.kind]
      decide
  | additive additive =>
      rw [additive.symbol, additive.kind]
      rcases additive.text with plus | minus <;> simp only [*] <;> decide
  | multiplicative multiplicative =>
      rw [multiplicative.symbol, multiplicative.kind]
      rcases multiplicative.text with times | divide <;> simp only [*] <;> decide
  | opening opening =>
      rw [opening.symbol, opening.kind]
      decide
  | closing closing =>
      rw [closing.symbol, closing.kind]
      decide

namespace Grammar.Nesting

theorem previous_after (nesting : Nesting) (front : List Token) (token : Token) :
    (nesting.after (front ++ [token])).previous = some token.symbol := by
  rw [after_append, after_cons, after_nil, next]

/-- Among lexemes the pass that counts nesting knows where an operand is wanted. -/
theorem atOperand_iff (lexemes : ∀ token ∈ front, token.IsLexeme) :
    (start.after front).AtOperand ↔ wantsOperand front = true := by
  rcases List.eq_nil_or_concat front with rfl | ⟨before, last, rfl⟩
  · exact iff_of_true start_atOperand rfl
  · rw [List.concat_eq_append] at lexemes ⊢
    rw [AtOperand, previous_after, Option.all_some, wantsOperand_concat,
      (lexemes last (by simp)).inSignContext]

/-- The pass counts a plus or minus as a sign where an operand is wanted, and only notes it
elsewhere. -/
theorem next_after_additive (lexemes : ∀ token ∈ front, token.IsLexeme)
    (additive : token.IsAdditive) :
    (start.after front).next token =
      if wantsOperand front then
        ⟨(start.after front).depth + 1, (start.after front).signs + 1, (start.after front).outer,
          some token.text⟩
      else { start.after front with previous := some token.text } := by
  split
  case isTrue wanted => exact next_sign ((atOperand_iff lexemes).mpr wanted) additive
  case isFalse unwanted =>
    exact next_additive (fun atOperand => unwanted ((atOperand_iff lexemes).mp atOperand)) additive

end Grammar.Nesting

end Reckon
