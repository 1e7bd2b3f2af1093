import Reckon.Proofs.Descent.Readers
import Reckon.Proofs.ShiftReduce.Marks

/-!
# Prefix signs

One question with three answers: whether a plus or minus is a sign before an operand. The pass that
counts nesting looks at the token in front, the machine at the top of its stack and the descent at
which of its functions is active. They agree, on streams that no expression has as well.
-/

set_option autoImplicit false

namespace Reckon

open Grammar (Nesting)

variable {tokens front rest : List Token} {token : Token}

/-- The machine marks a plus or minus that it shifts as the tokens in front of it say. -/
theorem ShiftReduce.symbols_shifted_additive (terminated : Terminated tokens)
    (tokens_eq : tokens = front ++ token :: rest) (additive : token.IsAdditive) {log : StepLog}
    {turns : Nat} {machine : ShiftReduce}
    (reaches : Reaches Rule.table turns (start tokens log) machine)
    (unread : machine.unread.tokens = token :: rest) :
    (machine.shifted token).symbols =
      machine.symbols ++ [if wantsOperand front then "u" ++ token.text else token.text] := by
  obtain ⟨seen, poised⟩ := Poised.reaches ⟨[], Poised.start terminated log⟩ reaches
  have split := poised.tokens_eq
  rw [unread, tokens_eq] at split
  obtain rfl := List.append_cancel_right split
  rw [poised.symbols_shifted, markedSymbol_additive additive]

namespace Ascribed

theorem stateOf_forget {α : Type} (result : EStateM.Result Fault Ascribed α) :
    stateOf (forget result) = (stateOf result).descent := by
  cases result <;> rfl

theorem Tells.index_eq {ascribed : Ascribed} (tells : Tells tokens ascribed) :
    Descent.index tokens ascribed.descent = ascribed.seen.length := by
  have length := congrArg List.length tells.tokens_eq
  rw [List.length_append, unread] at length
  rw [Descent.index]
  omega

end Ascribed

/-- Three notions of a prefix sign coincide. A plus or minus anywhere in a stream is preceded by
nothing, an opening parenthesis or an operator exactly if the pass that counts nesting counts it as
a sign, exactly if the machine marks it as one in whatever state it shifts it, and exactly if the
descent reads it in the branch of a factor for signs, provided that the descent comes to read it;
elsewhere the loop of expressions reads it. -/
theorem prefix_signs_coincide (terminated : Terminated tokens)
    (tokens_eq : tokens = front ++ token :: rest) (additive : token.IsAdditive) :
    (wantsOperand front = true ↔ front = [] ∨ ∃ before previous, front = before ++ [previous] ∧
      (previous.kind = .leftParenthesis ∨ previous.kind = .operator)) ∧
    (Nesting.start.after front).next token =
      (if wantsOperand front then
        ⟨(Nesting.start.after front).depth + 1, (Nesting.start.after front).signs + 1,
          (Nesting.start.after front).outer, some token.text⟩
      else { Nesting.start.after front with previous := some token.text }) ∧
    (∀ log turns machine,
      ShiftReduce.Reaches Rule.table turns (ShiftReduce.start tokens log) machine →
      machine.unread.tokens = token :: rest →
      (machine.shifted token).symbols =
        machine.symbols ++ [if wantsOperand front then "u" ++ token.text else token.text]) ∧
    ∀ calls log,
      Ascribed.forget (Ascribed.ascribe calls tokens log) =
          Descent.expression calls (Descent.start tokens log) ∧
        (stateOf (Ascribed.ascribe calls tokens log)).seen =
          tokens.take (Descent.index tokens
            (stateOf (Descent.expression calls (Descent.start tokens log)))) ∧
        (front.length < Descent.index tokens
            (stateOf (Descent.expression calls (Descent.start tokens log))) →
          (stateOf (Ascribed.ascribe calls tokens log)).readings[front.length]? =
            some ⟨if wantsOperand front then .sign else .loop .expression, token⟩) := by
  have lexemes := (tokens_eq ▸ terminated).isLexeme_in_front
  refine ⟨wantsOperand_iff front, Nesting.next_after_additive lexemes additive, ?_, ?_⟩
  · intro log turns machine reaches unread
    exact ShiftReduce.symbols_shifted_additive terminated tokens_eq additive reaches unread
  · intro calls log
    have forgets := Ascribed.forget_ascribe calls tokens log
    have tells := Ascribed.tells_ascribe terminated calls log
    have index := tells.index_eq
    rw [← Ascribed.stateOf_forget, forgets] at index
    rw [index]
    refine ⟨forgets, ?_, fun read => ?_⟩
    · have split := congrArg (List.take (stateOf (Ascribed.ascribe calls tokens log)).seen.length)
        tells.tokens_eq
      rw [List.take_left] at split
      exact split.symm
    · obtain ⟨reader, found, right⟩ := tells.reading_eq tokens_eq read
      rw [found, ← right additive]

/-- Of the two minuses of `2-(-1` the second is a sign, before which an operand is wanted. All three
tell them apart although the parenthesis is never closed. -/
theorem unfinishedGroup_signs :
    (Nesting.start.after (ShiftReduce.unfinishedGroup.take 3)).next ⟨.operator, "-", 3⟩ =
        ⟨2, 1, [0], some "-"⟩ ∧
      (∃ machine, ShiftReduce.Reaches Rule.table 6
          (ShiftReduce.start ShiftReduce.unfinishedGroup .empty) machine ∧
        (machine.shifted ⟨.operator, "-", 3⟩).symbols = (["E", "-", "(", "u-"] : List Text)) ∧
      (stateOf (Ascribed.ascribe depthLimit ShiftReduce.unfinishedGroup .empty)).readings[1]? =
        some ⟨.loop .expression, ⟨.operator, "-", 1⟩⟩ ∧
      (stateOf (Ascribed.ascribe depthLimit ShiftReduce.unfinishedGroup .empty)).readings[3]? =
        some ⟨.sign, ⟨.operator, "-", 3⟩⟩ := by
  have atOperator : ShiftReduce.unfinishedGroup = [⟨.number, "2", 0⟩] ++ ⟨.operator, "-", 1⟩ ::
      ShiftReduce.unfinishedGroup.drop 2 := rfl
  have atSign : ShiftReduce.unfinishedGroup = ShiftReduce.unfinishedGroup.take 3 ++
      ⟨.operator, "-", 3⟩ :: ShiftReduce.unfinishedGroup.drop 4 := rfl
  have terminated := ShiftReduce.unfinishedGroup_terminated
  obtain ⟨-, -, -, readsOperator⟩ := prefix_signs_coincide terminated atOperator ⟨rfl, .inr rfl⟩
  obtain ⟨-, counts, marks, readsSign⟩ := prefix_signs_coincide terminated atSign ⟨rfl, .inr rfl⟩
  have seen : ShiftReduce.atCap (ShiftReduce.run Rule.table 6
      (ShiftReduce.start ShiftReduce.unfinishedGroup .empty)) =
        some ((["E", "-", "("] : List Text),
          ⟨.operator, "-", 3⟩ :: ShiftReduce.unfinishedGroup.drop 4) := by decide +kernel
  obtain ⟨machine, reaches, symbols, unread⟩ := ShiftReduce.exists_reaches_of_atCap seen
  refine ⟨counts.trans (by decide +kernel), ⟨machine, reaches, ?_⟩,
    (readsOperator depthLimit .empty).2.2 (by decide +kernel),
    (readsSign depthLimit .empty).2.2 (by decide +kernel)⟩
  rw [marks .empty 6 machine reaches unread, symbols]
  rfl

end Reckon
