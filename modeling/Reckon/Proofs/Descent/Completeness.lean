import Reckon.Proofs.Descent.Soundness

/-!
# Completeness of the descent

On the tokens of a derivation the descent comes to the outcome of the derivation: its meaning, or
the fault of the first numeral beyond the finite doubles. On the way it notes the productions that
build something, each when its last token has been read, and its steps are counted. Derivations
recur to the left where the descent loops, so the induction is on a form of the statement in which
the loop is still to go on with what follows the derivation.
-/

set_option autoImplicit false

namespace Reckon.Descent

open Grammar (Nesting)

/-- A result is the outcome of a derivation, with the given tokens left to read, the given
constructions made so far and so many steps noted. -/
def Yields (result : EStateM.Result Fault Descent (Tree Text)) (outcome : Except Fault (Tree Text))
    (rest : List Token) (built : List Construction) (noted : Nat) : Prop :=
  match outcome with
  | .ok tree => ∃ after, result = .ok tree after ∧ after.unread.tokens = rest ∧
    after.built = built ∧ after.noted = noted
  | .error fault => ∃ after, result = .error fault after

/-- In front of a token at which its function stops, a derivation is read to its end. -/
def Closes {nonterminal : Nonterminal} (derivation : Derivation nonterminal) : Prop :=
  ∀ (limit calls : Nat) (nesting : Nesting) (descent : Descent) (token : Token)
    (others : List Token),
    descent.unread.tokens = derivation.tokens ++ token :: others →
    Ready nonterminal limit calls nesting (derivation.tokens ++ token :: others) →
    Stops nonterminal token →
    Yields (parser nonterminal calls descent) derivation.outcome (token :: others)
      (descent.built ++ derivation.built ((token :: others).map Token.shown))
      (descent.noted + derivation.notes)

/-- A derivation of a level is read up to the state of the loop in which it is the left operand. -/
def Opens (level : Level) (derivation : Derivation level.whole) : Prop :=
  ∀ (limit calls : Nat) (nesting : Nesting) (descent : Descent) (token : Token)
    (others : List Token),
    descent.unread.tokens = derivation.tokens ++ token :: others →
    Ready level.whole limit (calls + 1) nesting (derivation.tokens ++ token :: others) →
    Stops level.operand token →
    match derivation.outcome with
    | .ok tree => ∃ after turns,
      parser level.whole (calls + 1) descent =
        chain level.operators level.rule (parser level.operand calls) turns tree after ∧
      after.unread.tokens = token :: others ∧
      after.built = descent.built ++ derivation.built ((token :: others).map Token.shown) ∧
      after.noted = descent.noted + derivation.notes ∧ others.length < turns
    | .error fault => ∃ after, parser level.whole (calls + 1) descent = .error fault after

theorem opens_only (level : Level) {operand : Derivation level.operand} (closes : Closes operand) :
    Opens level (level.only operand) := by
  intro limit calls nesting descent token others next ready stops
  rw [level.tokens_only] at next ready
  have unbuilt : (descent.logged .process level.opening none).built = descent.built :=
    descent.built_logged_of_ne (by decide) _ _
  have operandRun := closes limit calls nesting (descent.logged .process level.opening none) token
    others next (ready.operand level) stops
  rw [level.outcome_only, level.parser_whole, run_bind_ok (step_eq ..)]
  cases outcome : operand.outcome with
  | error fault =>
      rw [outcome] at operandRun
      obtain ⟨after, failed⟩ := operandRun
      exact ⟨after, run_bind_error failed⟩
  | ok tree =>
      rw [outcome] at operandRun
      obtain ⟨after, done, remaining, built, noted⟩ := operandRun
      rw [unbuilt, ← level.built_only] at built
      rw [noted_logged, Nat.add_assoc, ← level.notes_only] at noted
      refine ⟨after, after.unread.tokens.length, ?_, remaining, built, noted, by simp [remaining]⟩
      rw [run_bind_ok done]
      rfl

theorem chain_of_operator (level : Level) {operand : Run (Tree Text)} {turns : Nat}
    {left : Tree Text} {descent : Descent} {token : Token} {rest : List Token}
    (next : descent.unread.tokens = token :: rest) (behind : rest ≠ [])
    (operator : level.IsOperator token) :
    chain level.operators level.rule operand (turns + 1) left descent =
      (do
        let right ← operand
        step .reduce ("Created binary operation: " ++ token.text) (some (level.rule token.text))
        chain level.operators level.rule operand turns (.binary token.text left right) :
          Run (Tree Text)) descent.advanced := by
  rw [chain, run_bind_ok (atOperator_eq _ next), level.isOperatorOf_eq operator, if_pos rfl,
    run_bind_ok (level.kind_eq operator ▸ eat_eq next behind)]

theorem opens_fold (level : Level) {left : Derivation level.whole} {operator : Token}
    (isOperator : level.IsOperator operator) {right : Derivation level.operand}
    (leftOpens : Opens level left) (rightCloses : Closes right) :
    Opens level (level.fold left operator isOperator right) := by
  intro limit calls nesting descent token others next ready stops
  simp only [level.tokens_fold, List.append_assoc, List.cons_append] at next ready
  have leftRun := leftOpens limit calls nesting descent operator (right.tokens ++ token :: others)
    next ready (level.stops_operand isOperator)
  rw [level.outcome_fold]
  cases leftOutcome : left.outcome with
  | error fault =>
      rw [leftOutcome] at leftRun
      exact leftRun
  | ok leftTree =>
      rw [leftOutcome] at leftRun
      obtain ⟨middle, turns, reached, remaining, leftBuilt, leftNoted, enough⟩ := leftRun
      obtain ⟨turns, rfl⟩ := Nat.exists_eq_succ_of_ne_zero (Nat.ne_zero_of_lt enough)
      have remains : right.tokens ++ token :: others ≠ [] := by simp
      have rightRun := rightCloses limit calls _ middle.advanced token others
        (by simp [remaining]) (ready.behind_operator level isOperator) stops
      rw [reached, chain_of_operator level remaining remains isOperator]
      cases rightOutcome : right.outcome with
      | error fault =>
          rw [rightOutcome] at rightRun
          obtain ⟨after, failed⟩ := rightRun
          exact ⟨after, run_bind_error failed⟩
      | ok rightTree =>
          rw [rightOutcome] at rightRun
          obtain ⟨after, done, remaining, rightBuilt, rightNoted⟩ := rightRun
          refine ⟨after.logged .reduce ("Created binary operation: " ++ operator.text)
            (some (level.rule operator.text)), turns, ?_, remaining, ?_, ?_, ?_⟩
          · rw [run_bind_ok done, run_bind_ok (step_eq ..)]
          · rw [built_labelled, remaining, rightBuilt, built_advanced, leftBuilt,
              level.built_fold left isOperator]
            simp
          · rw [noted_logged, rightNoted, noted_advanced, leftNoted, level.notes_fold]
            omega
          · simp only [List.length_append, List.length_cons] at enough
            omega

theorem closes_of_opens (level : Level) {derivation : Derivation level.whole}
    (opens : Opens level derivation) : Closes derivation := by
  intro limit calls nesting descent token others next ready stops
  obtain ⟨noOperator, stopsOperand⟩ := level.stops_whole_iff.mp stops
  have some : calls ≠ 0 := by
    have enough := ready.enough
    have height := level.height_whole
    omega
  obtain ⟨calls, rfl⟩ := Nat.exists_eq_succ_of_ne_zero some
  have run := opens limit calls nesting descent token others next ready stopsOperand
  cases outcome : derivation.outcome with
  | error fault =>
      rw [outcome] at run
      exact run
  | ok tree =>
      rw [outcome] at run
      obtain ⟨after, turns, reached, remaining, built, noted, enough⟩ := run
      obtain ⟨turns, rfl⟩ := Nat.exists_eq_succ_of_ne_zero (Nat.ne_zero_of_lt enough)
      refine ⟨after, ?_, remaining, built, noted⟩
      rw [reached, chain, run_bind_ok (atOperator_eq _ remaining), noOperator]
      rfl

theorem Ready.exists_calls {limit calls : Nat} {nesting : Nesting} {tokens : List Token}
    (ready : Ready .factor limit calls nesting tokens) : ∃ fewer, calls = fewer + 1 :=
  Nat.exists_eq_succ_of_ne_zero (Nat.ne_zero_of_lt ready.enough)

theorem closes_numeral {token : Token} (isNumeral : token.IsNumeral) :
    Closes (.numeral token isNumeral) := by
  intro limit calls nesting descent following others next ready _
  obtain ⟨fewer, rfl⟩ := ready.exists_calls
  have run := factor_of_numeral fewer next (by simp) isNumeral
  rw [Derivation.outcome]
  cases made : token.number with
  | error fault =>
      rw [made] at run
      exact ⟨_, run⟩
  | ok tree =>
      rw [made] at run
      have remaining : (descent.entered token).advanced.unread.tokens = following :: others := by
        simp [next, Derivation.tokens]
      refine ⟨_, run, remaining, ?_, ?_⟩
      · rw [built_numeral, remaining, built_advanced, built_entered, Derivation.built_numeral]
      · rw [noted_logged, noted_advanced, noted_entered, Derivation.notes]

theorem closes_signed {sign : Token} (isSign : sign.IsAdditive) {operand : Derivation .factor}
    (closes : Closes operand) : Closes (.signed sign isSign operand) := by
  intro limit calls nesting descent token others next ready stops
  obtain ⟨fewer, rfl⟩ := ready.exists_calls
  have remaining : (descent.entered sign).advanced.unread.tokens =
      operand.tokens ++ token :: others := by simp [next, Derivation.tokens]
  have operandRun := closes limit fewer _ (descent.entered sign).advanced token others remaining
    (ready.behind_sign isSign) stops
  change Yields (factor (fewer + 1) descent) _ _ _ _
  rw [factor_of_sign next (by simp) isSign, Derivation.outcome]
  cases outcome : operand.outcome with
  | error fault =>
      rw [outcome] at operandRun
      obtain ⟨after, failed⟩ := operandRun
      exact ⟨after, run_bind_error failed⟩
  | ok tree =>
      rw [outcome] at operandRun
      obtain ⟨after, done, left, built, noted⟩ := operandRun
      change factor fewer _ = _ at done
      refine ⟨after.logged .reduce ("Created unary operation: " ++ sign.text) none, ?_, left, ?_,
        ?_⟩
      · rw [run_bind_ok done, run_bind_ok (step_eq ..)]
        rfl
      · rw [built_signed _ isSign, left, built, built_advanced, built_entered,
          Derivation.built_signed, List.append_assoc]
      · rw [noted_logged, noted, noted_advanced, noted_entered, Derivation.notes]
        omega

theorem closes_group {opening closing : Token} (opens : opening.IsOpening)
    (closed : closing.IsClosing) {inner : Derivation .expression} (closes : Closes inner) :
    Closes (.group opening closing opens closed inner) := by
  intro limit calls nesting descent token others next ready _
  obtain ⟨fewer, rfl⟩ := ready.exists_calls
  simp only [Derivation.tokens, List.cons_append, List.append_assoc, List.nil_append] at next ready
  have remaining : (descent.opened opening).unread.tokens =
      inner.tokens ++ closing :: token :: others := by simp [next]
  have stops : Stops .expression closing :=
    ⟨isOperatorOf_of_kind_ne _ (by simp [closed.kind]),
      isOperatorOf_of_kind_ne _ (by simp [closed.kind])⟩
  have innerRun := closes limit fewer _ (descent.opened opening) closing (token :: others) remaining
    (ready.behind_opening opens) stops
  change Yields (factor (fewer + 1) descent) _ _ _ _
  rw [factor_of_opening next (by simp) opens, Derivation.outcome]
  cases outcome : inner.outcome with
  | error fault =>
      rw [outcome] at innerRun
      obtain ⟨after, failed⟩ := innerRun
      exact ⟨after, run_bind_error failed⟩
  | ok tree =>
      rw [outcome] at innerRun
      obtain ⟨after, done, left, built, noted⟩ := innerRun
      change expression fewer _ = _ at done
      have behind : after.advanced.unread.tokens = token :: others := by simp [left]
      refine ⟨after.advanced.logged .reduce "Completed parenthesized expression" none, ?_, behind,
        ?_, ?_⟩
      · rw [run_bind_ok done, run_bind_ok (closed.kind ▸ eat_eq left (by simp)),
          run_bind_ok (step_eq ..)]
        rfl
      · rw [built_group, behind, built_advanced, built, built_opened, Derivation.built_group,
          List.append_assoc, List.map_cons]
      · rw [noted_logged, noted_advanced, noted, noted_opened, Derivation.notes]
        omega

/-- What the induction over a derivation carries: factors are read to their end, and the
derivations of the two levels up to the state of their loop. -/
def Followed : {nonterminal : Nonterminal} → Derivation nonterminal → Prop
  | .factor, derivation => Closes derivation
  | .term, derivation => Opens .products derivation
  | .expression, derivation => Opens .sums derivation

theorem followed {nonterminal : Nonterminal} (derivation : Derivation nonterminal) :
    Followed derivation := by
  induction derivation with
  | numeral token isNumeral => exact closes_numeral isNumeral
  | group opening closing opens closes inner ih =>
      exact closes_group opens closes (closes_of_opens .sums ih)
  | signed sign isSign operand ih => exact closes_signed isSign ih
  | single factor ih => exact opens_only .products ih
  | product left operator isOperator right leftIH rightIH =>
      exact opens_fold .products isOperator leftIH rightIH
  | alone term ih => exact opens_only .sums (closes_of_opens .products ih)
  | sum left operator isOperator right leftIH rightIH =>
      exact opens_fold .sums isOperator leftIH (closes_of_opens .products rightIH)

/-- The descent on a whole stream of the language comes to the outcome of its derivation. -/
theorem closes_expression (derivation : Derivation .expression) : Closes derivation :=
  closes_of_opens .sums (followed derivation)

end Reckon.Descent
