import Reckon.Proofs.Descent.Levels
import Reckon.Proofs.Language
import Reckon.Proofs.Prefixes

/-!
# Soundness of the descent

What a function of the descent returns is the meaning of a derivation of the tokens that it read,
and it has stopped at a token that cannot go on with the derivation. If it fails, it refuses the
first of its tokens that is out of place, or a numeral beyond the finite doubles; it never runs out
of calls when the nesting of the stream is allowed. Nothing here asks the stream to be in the
language.
-/

set_option autoImplicit false

namespace Reckon

namespace Descent

open Grammar (Nesting)

/-- A value is the meaning of a derivation of the tokens between two states, and the function stops
at the token behind them. -/
def Reads (nonterminal : Nonterminal) (tokens : List Token) (tree : Tree Text) (after : Descent) :
    Prop :=
  ∃ derivation : Derivation nonterminal, tokens = derivation.tokens ++ after.unread.tokens ∧
    derivation.outcome = .ok tree ∧ ∀ token ∈ after.unread.tokens.head?, Stops nonterminal token

/-- A fault is about a token that is out of place among those behind a nesting, or about a numeral
beyond the finite doubles. -/
def Misreads (nesting : Nesting) (tokens : List Token) (fault : Fault) : Prop :=
  ∃ cause, ∃ token, (nesting.Misplaced tokens token ∨ token ∈ tokens ∧ token.isUnbounded = true) ∧
    fault = .syntactic cause token.position ∧ cause.isDefensive = false ∧ cause ≠ .capReached

namespace Misreads

variable {nesting : Nesting} {fault : Fault} {tokens : List Token}

theorem refuses (misreads : Misreads nesting tokens fault) : Refuses tokens fault := by
  obtain ⟨cause, token, misplaced | ⟨member, -⟩, shape⟩ := misreads
  · exact ⟨cause, token, misplaced.mem, shape⟩
  · exact ⟨cause, token, member, shape⟩

theorem behind {front : List Token} (takes : nesting.Takes front)
    (misreads : Misreads (nesting.after front) tokens fault) :
    Misreads nesting (front ++ tokens) fault := by
  obtain ⟨cause, token, misplaced | ⟨member, unbounded⟩, shape⟩ := misreads
  · exact ⟨cause, token, .inl (misplaced.behind takes), shape⟩
  · exact ⟨cause, token, .inr ⟨List.mem_append_right front member, unbounded⟩, shape⟩

theorem of_overflows (overflows : Overflows tokens fault) : Misreads nesting tokens fault := by
  obtain ⟨token, member, unbounded, rfl⟩ := overflows
  exact ⟨_, token, .inr ⟨member, unbounded⟩, rfl, rfl, by simp⟩

/-- A token that no operand starts with is out of place where an operand is wanted. -/
theorem of_stray {cause : SyntaxCause} {token : Token} {rest : List Token}
    (atOperand : nesting.AtOperand)
    (stray : token.IsMultiplicative ∨ token.IsClosing ∨ token.kind = .endOfInput)
    (ordinary : cause.isDefensive = false ∧ cause ≠ .capReached) :
    Misreads nesting (token :: rest) (.syntactic cause token.position) := by
  refine ⟨cause, token, .inl (.of_head ?_ ?_), rfl, ordinary⟩
  · intro fits
    have kinds : token.kind = .operator ∨ token.kind = .rightParenthesis ∨
        token.kind = .endOfInput :=
      stray.imp Token.IsMultiplicative.kind (Or.imp_left Token.IsClosing.kind)
    cases fits with
    | numeral _ isNumeral => simp [isNumeral.kind] at kinds
    | opening _ opens => simp [opens.kind] at kinds
    | sign _ isSign =>
        rcases stray with isOperator | closes | isLast
        · have plusMinus := isOperatorOf_additive isSign
          simp [not_isOperatorOf_multiplicative isOperator] at plusMinus
        · cases isSign.kind.symm.trans closes.kind
        · cases isSign.kind.symm.trans isLast
    | additive behindOperand => exact behindOperand atOperand
    | multiplicative behindOperand => exact behindOperand atOperand
    | closing behindOperand => exact behindOperand atOperand
  · intro _ closed
    exact closed.behindOperand atOperand

end Misreads

/-- Where an operand has ended, a token is out of place that does not go on with it and closes
nothing. -/
theorem misplaced_of_stops {nesting : Nesting} {token : Token} {rest : List Token}
    (behindOperand : ¬ nesting.AtOperand) (stops : Stops .expression token)
    (closesNothing : token.IsClosing → nesting.outer = [])
    (unclosed : token.isEnd = true → nesting.outer ≠ []) :
    nesting.Misplaced (token :: rest) token := by
  obtain ⟨notAdditive, notMultiplicative⟩ := stops
  refine .of_head ?_ ?_
  · intro fits
    cases fits with
    | numeral atOperand => exact behindOperand atOperand
    | sign atOperand => exact behindOperand atOperand
    | opening atOperand => exact behindOperand atOperand
    | additive _ isOperator => simp [isOperatorOf_additive isOperator] at notAdditive
    | multiplicative _ isOperator =>
        simp [isOperatorOf_multiplicative isOperator] at notMultiplicative
    | closing _ opened closes => exact opened (closesNothing closes)
  · intro isLast closed
    exact unclosed isLast closed.outer_eq

/-- A function for a nonterminal keeps its contract with so many calls. -/
def Sound (nonterminal : Nonterminal) (limit calls : Nat) : Prop :=
  ∀ (descent : Descent) (nesting : Nesting),
    Ready nonterminal limit calls nesting descent.unread.tokens →
    Ends (parser nonterminal calls) descent (Reads nonterminal descent.unread.tokens)
      (Misreads nesting descent.unread.tokens)

variable {limit calls : Nat}

/-- The loop of a level extends the derivation that it starts from. -/
theorem chain_sound (level : Level) (operandSound : Sound level.operand limit calls)
    {tokens : List Token} {nesting : Nesting}
    (ready : Ready level.whole limit (calls + 1) nesting tokens) (turns : Nat)
    (left : Derivation level.whole) {leftTree : Tree Text}
    (leftOutcome : left.outcome = .ok leftTree)
    (descent : Descent) (read : tokens = left.tokens ++ descent.unread.tokens)
    (enough : descent.unread.tokens.length ≤ turns)
    (stops : ∀ token ∈ descent.unread.tokens.head?, Stops level.operand token) :
    Ends (chain level.operators level.rule (parser level.operand calls) turns leftTree) descent
      (Reads level.whole tokens) (Misreads nesting tokens) := by
  -- What the loop has read is always a derivation of the level, the left operand so far.
  induction turns generalizing left leftTree descent with
  | zero =>
      have terminated : Terminated descent.unread.tokens :=
        (read ▸ ready.terminated).behind fun _ member => Derivation.isLexeme_of_mem member
      exact absurd (List.length_eq_zero_iff.mp (Nat.le_zero.mp enough)) terminated.ne_nil
  | succ turns ih =>
      have terminated : Terminated descent.unread.tokens :=
        (read ▸ ready.terminated).behind fun _ member => Derivation.isLexeme_of_mem member
      obtain ⟨token, rest, next⟩ := List.exists_cons_of_ne_nil terminated.ne_nil
      rw [chain]
      refine .bind_ok (atOperator_eq level.operators next) ?_
      cases continues : isOperatorOf level.operators token with
      | false =>
          refine .of_ok rfl ⟨left, read, leftOutcome, ?_⟩
          intro other first
          obtain rfl : token = other := by simpa [next] using first
          exact level.stops_whole_iff.mpr ⟨continues, stops token first⟩
      | true =>
          rw [next] at terminated read enough
          have operator := level.isOperator terminated.head continues
          have behind := terminated.tail (level.isLexeme operator)
          rw [if_pos rfl]
          refine .bind_ok (level.kind_eq operator ▸ eat_eq next behind.ne_nil) ?_
          refine .bind ?_
          have remaining : descent.advanced.unread.tokens = rest := by simp [next]
          have readyOperand := (read ▸ ready).behind_operator level operator
          rw [← remaining] at readyOperand
          refine (operandSound descent.advanced _ readyOperand).mono ?_ ?_
          · rintro right after ⟨derivation, readRight, rightOutcome, rightStops⟩
            refine .bind_ok (step_eq ..) ?_
            refine ih (level.fold left token operator derivation) ?_ _ ?_ ?_ rightStops
            · rw [level.outcome_fold, leftOutcome, rightOutcome]
              rfl
            · rw [read, level.tokens_fold, ← remaining, readRight]
              simp
            · have shorter := congrArg List.length readRight
              simp only [remaining, List.length_append, List.length_cons] at shorter enough
              simp only [unread_logged]
              omega
          · intro fault misreads
            rw [remaining] at misreads
            have takes : nesting.Takes (left.tokens ++ [token]) :=
              Nesting.takes_append_iff.mpr ⟨Nesting.takes_derivation left nesting ready.atOperand,
                .cons (level.fits_operator operator
                  (Nesting.after_derivation left nesting ready.atOperand).behindOperand) .nil⟩
            have behindOperator := Misreads.behind takes (by simpa using misreads)
            rw [read]
            simpa using behindOperator

theorem level_sound (level : Level) (operandSound : Sound level.operand limit calls) :
    Sound level.whole limit (calls + 1) := by
  intro descent nesting ready
  rw [level.parser_whole]
  refine .bind_ok (step_eq ..) ?_
  have operandEnds :=
    operandSound (descent.logged .process level.opening none) nesting (ready.operand level)
  refine .andThen operandEnds ?_
  rintro first after ⟨derivation, read, outcome, stops⟩
  refine .bind_ok rfl ?_
  refine chain_sound level operandSound ready _ (level.only derivation) ?_ after ?_ (Nat.le_refl _)
    stops
  · rw [level.outcome_only, outcome]
  · rw [level.tokens_only]
    exact read

theorem signed_sound (factorSound : Sound .factor limit calls) {descent : Descent}
    {nesting : Nesting} {token : Token} {rest : List Token}
    (ready : Ready .factor limit (calls + 1) nesting (token :: rest))
    (next : descent.unread.tokens = token :: rest) (sign : token.IsAdditive) :
    Ends (factor (calls + 1)) descent (Reads .factor (token :: rest))
      (Misreads nesting (token :: rest)) := by
  have behind := ready.terminated.tail (.additive sign)
  have remaining : (descent.entered token).advanced.unread.tokens = rest := by simp [next]
  have operandEnds := factorSound (descent.entered token).advanced _
    (remaining ▸ ready.behind_sign sign)
  rw [remaining] at operandEnds
  refine .of_eq (factor_of_sign next behind.ne_nil sign) (.bind (operandEnds.mono ?_ ?_))
  · rintro operand after ⟨derivation, rfl, outcome, stops⟩
    refine .bind_ok (step_eq ..) (.of_ok rfl ⟨.signed token sign derivation, rfl, ?_, stops⟩)
    rw [Derivation.outcome, outcome]
    rfl
  · intro fault misreads
    exact .behind (.cons (.sign ready.atOperand sign) .nil) misreads

theorem group_sound (expressionSound : Sound .expression limit calls) {descent : Descent}
    {nesting : Nesting} {token : Token} {rest : List Token}
    (ready : Ready .factor limit (calls + 1) nesting (token :: rest))
    (next : descent.unread.tokens = token :: rest) (opening : token.IsOpening) :
    Ends (factor (calls + 1)) descent (Reads .factor (token :: rest))
      (Misreads nesting (token :: rest)) := by
  have behind := ready.terminated.tail (.opening opening)
  have remaining : (descent.opened token).unread.tokens = rest := by simp [next]
  have readyInner := ready.behind_opening opening
  have innerEnds := expressionSound (descent.opened token) _ (remaining ▸ readyInner)
  have takesOpening : nesting.Takes [token] := .cons (.opening ready.atOperand opening) .nil
  rw [remaining] at innerEnds
  refine .of_eq (factor_of_opening next behind.ne_nil opening) (.bind (innerEnds.mono ?_ ?_))
  · rintro inner after ⟨derivation, rfl, outcome, stops⟩
    have terminated := behind.behind fun _ member => Derivation.isLexeme_of_mem member
    obtain ⟨last, others, nextAfter⟩ := List.exists_cons_of_ne_nil terminated.ne_nil
    rw [nextAfter] at terminated stops ⊢
    by_cases closes : last.kind = .rightParenthesis
    · have closing := Token.isClosing_of_kind terminated.head closes
      have remains := (terminated.tail (.closing closing)).ne_nil
      refine .bind_ok (closes ▸ eat_eq nextAfter remains) (.bind_ok (step_eq ..) ?_)
      refine .of_ok rfl ⟨.group token last opening closing derivation, ?_, outcome, ?_⟩
      · simp [Derivation.tokens, nextAfter]
      · exact fun _ _ => trivial
    · have settled := Nesting.after_derivation derivation _ readyInner.atOperand
      have misplaced : Nesting.Misplaced ((nesting.next token).after derivation.tokens)
          (last :: others) last := by
        refine misplaced_of_stops settled.behindOperand (stops last rfl) ?_ ?_
        · exact fun closing => absurd closing.kind closes
        · intro _ closed
          rw [settled.outer_eq, Nesting.next_opening opening] at closed
          cases closed
      refine .bind (.of_error (eat_error nextAfter closes) ?_)
      refine .behind takesOpening ?_
      refine .behind (Nesting.takes_derivation derivation _ readyInner.atOperand) ?_
      exact ⟨_, last, .inl misplaced, rfl, rfl, by simp⟩
  · exact fun fault misreads => .behind takesOpening misreads

theorem factor_sound (factorSound : Sound .factor limit calls)
    (expressionSound : Sound .expression limit calls) : Sound .factor limit (calls + 1) := by
  intro descent nesting ready
  obtain ⟨token, rest, next⟩ := List.exists_cons_of_ne_nil ready.terminated.ne_nil
  rw [next] at ready ⊢
  rcases ready.terminated.head with lexeme | isLast
  · have behind := ready.terminated.tail lexeme
    cases lexeme with
    | numeral numeral =>
        have outcome := factor_of_numeral calls next behind.ne_nil numeral
        cases made : token.number with
        | error fault =>
            rw [made] at outcome
            exact .of_error outcome (.of_overflows (numeral.overflows made (by simp)))
        | ok tree =>
            rw [made] at outcome
            refine .of_ok outcome ⟨.numeral token numeral, ?_, made, fun _ _ => trivial⟩
            simp [Derivation.tokens, next]
    | additive sign => exact signed_sound factorSound ready next sign
    | multiplicative multiplicative =>
        refine .of_error (factor_of_stray next (.inl multiplicative)) ?_
        exact .of_stray ready.atOperand (.inl multiplicative) ⟨rfl, by simp⟩
    | opening opening => exact group_sound expressionSound ready next opening
    | closing closing =>
        refine .of_error (factor_of_stray next (.inr closing)) ?_
        exact .of_stray ready.atOperand (.inr (.inl closing)) ⟨rfl, by simp⟩
  · refine .of_error (factor_of_end next isLast) ?_
    exact .of_stray ready.atOperand (.inr (.inr isLast)) ⟨rfl, by simp⟩

theorem parser_sound (nonterminal : Nonterminal) (limit calls : Nat) :
    Sound nonterminal limit calls := by
  induction calls generalizing nonterminal with
  | zero =>
      intro descent nesting ready
      have enough := ready.enough
      cases nonterminal <;> simp [height] at enough
  | succ calls ih =>
      cases nonterminal with
      | expression => exact level_sound .sums (ih .term)
      | term => exact level_sound .products (ih .factor)
      | factor => exact factor_sound (ih .factor) (ih .expression)

end Descent

end Reckon
