import Reckon.Comparison
import Reckon.Proofs.Dumps

/-!
# Comparing and interpreting tell the same

A comparison goes through the stages on its own and keeps what each strategy came to; interpreting
goes through them with one strategy and evaluates once more for the trace. What a comparison says of
a strategy is what interpreting with that strategy comes to.
-/

set_option autoImplicit false

namespace Reckon

namespace Comparison

def resultOf? (comparison : Comparison) : Strategy → Option Double
  | .topDown => comparison.topDownResult
  | .bottomUp => comparison.bottomUpResult

def stepCountOf (comparison : Comparison) : Strategy → Nat
  | .topDown => comparison.topDownSteps
  | .bottomUp => comparison.bottomUpSteps

/-- A comparison says of a strategy what its attempt came to. -/
structure Reports (comparison : Comparison) (strategy : Strategy) (made : Attempt) : Prop where
  failure : comparison.failureOf? strategy = made.failure
  result : comparison.resultOf? strategy = made.result
  steps : comparison.stepCountOf strategy = made.stepCount

variable {expression : Text} {tokens : List Token} {cap? : Option Int} {comparison : Comparison}

theorem failureOf?_ofLexicalFailure (failure : Failure) (strategy : Strategy) :
    (ofLexicalFailure expression failure).failureOf? strategy = some failure := by
  cases strategy <;> rfl

theorem lookup_named (topDown bottomUp : Attempt) (strategy : Strategy) :
    (topDown.named .topDown ++ bottomUp.named .bottomUp).lookup strategy.name =
      (match strategy with
        | .topDown => topDown
        | .bottomUp => bottomUp).failure := by
  obtain ⟨_, _, topDownFailure⟩ := topDown
  obtain ⟨_, _, bottomUpFailure⟩ := bottomUp
  cases strategy <;> cases topDownFailure <;> cases bottomUpFailure <;> rfl

theorem exists_attempt_of_compared (lexed : Token.tokenize expression = .ok tokens)
    (compared : compareStrategies expression cap? = .ok comparison) (strategy : Strategy) :
    ∃ made, attempt expression tokens cap? strategy = .ok made ∧
      comparison.Reports strategy made := by
  rw [compareStrategies, lexed] at compared
  obtain ⟨topDown, topDownMade, compared⟩ := except_bind_ok compared
  obtain ⟨bottomUp, bottomUpMade, compared⟩ := except_bind_ok compared
  obtain ⟨sameTree, -, compared⟩ := except_bind_ok compared
  cases compared
  cases strategy with
  | topDown => exact ⟨topDown, topDownMade, lookup_named topDown bottomUp .topDown, rfl, rfl⟩
  | bottomUp => exact ⟨bottomUp, bottomUpMade, lookup_named topDown bottomUp .bottomUp, rfl, rfl⟩

/-- An attempt came to the same as an interpretation. -/
def Attempt.Matches (made : Attempt) : Except Failure Report → Prop
  | .ok report =>
    made.failure = none ∧ made.result = some report.result ∧
      made.stepCount = report.parsingSteps.length
  | .error failure => made.failure = some failure

end Comparison

section Interpreting

variable {expression name : Text} {tokens : List Token} {cap? : Option Int} {strategy : Strategy}
  {fault : Fault} {failure : Failure}

/-- Both report the same failure for a fault about the source. -/
theorem interpretSafely_of_fault (refused : interpret expression name cap? = .error fault)
    (told : Comparison.failureOf expression fault = .ok failure) :
    interpretSafely expression name cap? = .ok ⟨expression, name, .error failure⟩ := by
  unfold Comparison.failureOf at told
  rw [interpretSafely, refused]
  cases diagnosed : fault.diagnosis? with
  | none =>
      rw [diagnosed] at told
      cases told
  | some diagnosis =>
      rw [diagnosed] at told
      cases told
      simp only [diagnosed]

theorem interpret_of_unlexed (refused : Token.tokenize expression = .error fault) :
    interpret expression name cap? = .error fault := by
  rw [interpret, refused]
  rfl

variable (lexed : Token.tokenize expression = .ok tokens)
  (named : Strategy.ofName name = .ok strategy)
include lexed named

theorem interpret_of_refused (refused : strategy.parse tokens cap? = .error fault) :
    interpret expression name cap? = .error fault := by
  simp only [interpret, lexed, named, refused, bind, Except.bind]

theorem interpret_of_failed {parsed : Parsed} (accepted : strategy.parse tokens cap? = .ok parsed)
    (failed : Evaluation.value parsed.tree = .error fault) :
    interpret expression name cap? = .error fault := by
  simp only [interpret, lexed, named, accepted, failed, bind, Except.bind]

theorem interpret_of_evaluated {parsed : Parsed}
    (accepted : strategy.parse tokens cap? = .ok parsed) {result : Double}
    (evaluated : Evaluation.value parsed.tree = .ok result) :
    ∃ report, interpret expression name cap? = .ok report ∧ report.result = result ∧
      report.parsingSteps = parsed.steps := by
  -- The walks for the trace and the dump do not fail where the first one did not.
  obtain ⟨traced, tracing, -⟩ := Evaluation.trace_of_value evaluated
  obtain ⟨parseTree, dumped⟩ := Tree.exists_dump_of_value evaluated 0
  simp only [interpret, lexed, named, accepted, evaluated, tracing, dumped, bind, Except.bind]
  exact ⟨_, rfl, rfl, rfl⟩

theorem exists_outcome_of_attempt {made : Comparison.Attempt}
    (attempted : Comparison.attempt expression tokens cap? strategy = .ok made) :
    ∃ outcome, interpretSafely expression name cap? = .ok outcome ∧
      made.Matches outcome.result := by
  unfold Comparison.attempt at attempted
  cases answer : strategy.parse tokens cap? with
  | error fault =>
      rw [answer] at attempted
      obtain ⟨failure, told, returned⟩ := except_bind_ok attempted
      cases returned
      exact ⟨_, interpretSafely_of_fault (interpret_of_refused lexed named answer) told, rfl⟩
  | ok parsed =>
      simp only [answer] at attempted
      cases evaluated : Evaluation.value parsed.tree with
      | error fault =>
          rw [evaluated] at attempted
          obtain ⟨failure, told, returned⟩ := except_bind_ok attempted
          cases returned
          have refused := interpret_of_failed lexed named answer evaluated
          exact ⟨_, interpretSafely_of_fault refused told, rfl⟩
      | ok result =>
          rw [evaluated] at attempted
          cases attempted
          obtain ⟨report, interpreted, sameResult, sameSteps⟩ :=
            interpret_of_evaluated lexed named answer evaluated
          refine ⟨⟨expression, report.strategy.name, .ok report⟩, ?_, rfl, ?_, ?_⟩
          · rw [interpretSafely, interpreted]
          · rw [sameResult]
          · rw [sameSteps]
            rfl

end Interpreting

/-- What a comparison that comes to an end says of a strategy is what interpreting the expression
with that strategy, under any of its names, comes to: the same failure, or the same value after as
many steps of parsing and no failure. -/
theorem comparison_matches_interpretation {expression : Text} {cap? : Option Int}
    {comparison : Comparison} (compared : compareStrategies expression cap? = .ok comparison)
    {strategy : Strategy} {name : Text} (named : Strategy.ofName name = .ok strategy) :
    ∃ outcome, interpretSafely expression name cap? = .ok outcome ∧
      match outcome.result with
      | .error failure => comparison.failureOf? strategy = some failure
      | .ok report =>
        comparison.failureOf? strategy = none ∧
          comparison.resultOf? strategy = some report.result ∧
          comparison.stepCountOf strategy = report.parsingSteps.length := by
  cases lexed : Token.tokenize expression with
  | error fault =>
      rw [compareStrategies, lexed] at compared
      obtain ⟨failure, told, returned⟩ := except_bind_ok compared
      cases returned
      refine ⟨_, interpretSafely_of_fault (interpret_of_unlexed lexed) told, ?_⟩
      exact Comparison.failureOf?_ofLexicalFailure failure strategy
  | ok tokens =>
      obtain ⟨made, attempted, reports⟩ :=
        Comparison.exists_attempt_of_compared lexed compared strategy
      obtain ⟨outcome, interpreted, same⟩ := exists_outcome_of_attempt lexed named attempted
      refine ⟨outcome, interpreted, ?_⟩
      obtain ⟨_, _, result⟩ := outcome
      cases result with
      | error failure => exact reports.failure.trans same
      | ok report =>
          obtain ⟨noFailure, sameResult, sameSteps⟩ := same
          exact ⟨reports.failure.trans noFailure, reports.result.trans sameResult,
            reports.steps.trans sameSteps⟩

theorem signedTwoTimesThree_is_told_alike :
    Strategy.ofName "bu" = .ok .bottomUp ∧
      ∃ comparison outcome report, compareStrategies "-2*3" none = .ok comparison ∧
        interpretSafely "-2*3" "bu" none = .ok outcome ∧ outcome.result = .ok report ∧
        comparison.failureOf? .bottomUp = none ∧
        comparison.resultOf? .bottomUp = some report.result ∧
        comparison.stepCountOf .bottomUp = report.parsingSteps.length := by
  have named : Strategy.ofName "bu" = .ok .bottomUp := by decide +kernel
  have clean : ((compareStrategies "-2*3" none).map fun comparison =>
      comparison.failureOf? .bottomUp) = .ok none := by decide +kernel
  obtain ⟨comparison, compared, noFailure⟩ := except_map_ok clean
  obtain ⟨⟨_, _, result⟩, interpreted, same⟩ := comparison_matches_interpretation compared named
  cases result with
  | error failure => cases noFailure.symm.trans same
  | ok report => exact ⟨named, comparison, _, report, compared, interpreted, rfl, same⟩

end Reckon
