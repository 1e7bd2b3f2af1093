import Reckon.Proofs.Operands
import Reckon.Proofs.ShiftReduce.Segments

/-!
# Marks of signs on the stack

The machine tells a sign from an operator by the top of its stack, after any number of folds. A fold
never uncovers what makes the difference: it starts from a symbol that ends an operand and leaves
one. So the top tells whether an operand is wanted behind what was read, and each token gets the
symbol that the token in front of it gives it.
-/

set_option autoImplicit false

namespace Reckon.ShiftReduce

open Grammar (signContext shiftSymbol)

variable {tokens seen : List Token} {machine next : ShiftReduce} {token : Token}

/-- Where a symbol tells what the token in front tells, a token gets the same mark by either. -/
theorem shiftSymbol_eq_markedSymbol {top? : Option Text}
    (told : top?.all signContext.contains = wantsOperand seen) (token : Token) :
    shiftSymbol token top? = markedSymbol seen token := by
  rw [shiftSymbol, told, markedSymbol]
  split
  case isFalse _ => rfl
  case isTrue marked =>
    obtain ⟨sign, -⟩ := Bool.and_eq_true_iff.mp marked
    simp only [Grammar.isSignSymbol, Bool.or_eq_true, beq_iff_eq] at sign
    rcases sign with plus | minus
    · simp [plus, marked_signs.1]
    · simp [minus, marked_signs.2]

theorem exists_shiftSymbol_eq (seen : List Token) (token : Token) :
    ∃ top? : Option Text, shiftSymbol token top? = markedSymbol seen token := by
  obtain ⟨top?, told⟩ : ∃ top? : Option Text,
      top?.all signContext.contains = wantsOperand seen := by
    cases wantsOperand seen with
    | true => exact ⟨none, rfl⟩
    | false => exact ⟨some ")", by decide⟩
  exact ⟨top?, shiftSymbol_eq_markedSymbol told token⟩

theorem marks_markedSymbol (lexeme : token.IsLexeme) (seen : List Token) :
    Marks token (markedSymbol seen token) := by
  obtain ⟨top?, same⟩ := exists_shiftSymbol_eq seen token
  rw [← same]
  exact marks_shiftSymbol lexeme top?

/-- The top of the stack tells whether an operand is wanted behind the tokens that were read. -/
structure Poised (tokens : List Token) (machine : ShiftReduce) (seen : List Token) : Prop
    extends Sound tokens machine seen where
  top_eq : (machine.stack.head?.map Frame.symbol).all signContext.contains = wantsOperand seen

/-- Every symbol that a lexeme can get tells what the lexeme itself does. -/
theorem inSignContext_shiftSymbol (lexeme : token.IsLexeme) (top? : Option Text) :
    signContext.contains (shiftSymbol token top?) =
      (token.kind == .leftParenthesis || token.kind == .operator) := by
  rcases Grammar.shiftSymbol_cases token top? with same | ⟨plus, marked⟩ | ⟨minus, marked⟩
  · rw [same, lexeme.inSignContext]
  · rw [← lexeme.inSignContext, plus, marked]
    decide
  · rw [← lexeme.inSignContext, minus, marked]
    decide

theorem table_lhs_notMem : ∀ rule ∈ Rule.table, signContext.contains rule.lhs = false := by
  decide

/-- A fold starts from the end of an operand. -/
theorem top_of_ruleAt {rule : Rule} (found : machine.ruleAt? Rule.table token = some rule) :
    (machine.stack.head?.map Frame.symbol).all signContext.contains = false := by
  rw [← List.head?_map]
  unfold ruleAt? at found
  cases shape : machine.stack.map Frame.symbol with
  | nil =>
      rw [shape, Grammar.findReduction?_nil] at found
      cases found
  | cons symbol below =>
      rw [shape] at found
      rw [List.head?_cons, Option.all_some, Bool.eq_false_iff]
      intro context
      rw [Grammar.findReduction?_of_context context] at found
      cases found

namespace Poised

theorem start (terminated : Terminated tokens) (log : StepLog) :
    Poised tokens (.start tokens log) [] :=
  ⟨Sound.start terminated log, rfl⟩

theorem turned (poised : Poised tokens machine seen) (turned : Turned Rule.table machine next) :
    ∃ more, Poised tokens next more := by
  obtain ⟨more, sound⟩ := poised.toSound.turned turned
  refine ⟨more, sound, ?_⟩
  have read := sound.tokens_eq
  rw [poised.tokens_eq] at read
  cases turned with
  | @reduced token rest rule item unread goesOn found made =>
      obtain rfl : seen = more := List.append_cancel_right read
      -- Neither the end of an operand nor the nonterminal that is made of it wants an operand.
      have member := (Grammar.findReduction?_spec found).1
      rw [← poised.top_eq, top_of_ruleAt found, stack_reduced]
      exact table_lhs_notMem rule member
  | @shifted token rest unread goesOn noRule notLast =>
      rw [tokens_shifted, unread, List.tail_cons, List.append_cons] at read
      obtain rfl : seen ++ [token] = more := List.append_cancel_right read
      have lexeme : token.IsLexeme := sound.stacked.isLexeme (by simp)
      rw [wantsOperand_concat, ← inSignContext_shiftSymbol lexeme, stack_shifted]
      rfl

theorem reaches {turns : Nat} (poised : ∃ seen, Poised tokens machine seen)
    (reaches : Reaches Rule.table turns machine next) : ∃ seen, Poised tokens next seen := by
  induction reaches with
  | refl => exact poised
  | turn turned _ ih =>
      obtain ⟨_, poised⟩ := poised
      exact ih (poised.turned turned)

theorem shiftSymbol_eq (poised : Poised tokens machine seen) (token : Token) :
    shiftSymbol token (machine.stack.head?.map Frame.symbol) = markedSymbol seen token :=
  shiftSymbol_eq_markedSymbol poised.top_eq token

theorem symbols_shifted (poised : Poised tokens machine seen) (token : Token) :
    (machine.shifted token).symbols = machine.symbols ++ [markedSymbol seen token] := by
  rw [ShiftReduce.symbols_shifted, getLast?_symbols, poised.shiftSymbol_eq]

end Poised

end Reckon.ShiftReduce
