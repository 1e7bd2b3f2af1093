import Reckon.Comparison
import Reckon.Proofs.Parsing
import Reckon.Proofs.Rounding
import Reckon.Proofs.SameTrees

/-!
# The strategies never disagree

Comparing the strategies on an expression finds them in agreement whenever the comparison comes to
an end and the cap lets the bottom-up parser finish: the lexer fails for both, or both parsers
refuse the stream, or both find the same tree and so the same value or the same fault of arithmetic.
A batch of such comparisons has no disagreements.
-/

set_option autoImplicit false

namespace Reckon

section SameTree

theorem Tree.IsLegal.foreignType?_eq_none {tree : Tree Text} (legal : tree.IsLegal) :
    tree.foreignType? = none := by
  induction legal with
  | number _ => rfl
  | unary _ _ ih => exact ih
  | binary _ _ _ leftIH rightIH => rw [Tree.foreignType?, leftIH, rightIH, Option.or_none]

theorem Tree.IsLegal.sameWithin_self {tree : Tree Text} (legal : tree.IsLegal) {levels : Nat}
    {answer : Bool} (compared : Tree.sameWithin levels tree tree = .ok answer) : answer = true := by
  rw [Tree.sameWithin_self_eq legal.foreignType?_eq_none] at compared
  split at compared <;> cases compared
  rfl

theorem Comparison.sameValue_self {value : Double} (finite : value.isFinite = true) :
    Comparison.sameValue (some value) (some value) = true := by
  cases value with
  | nan => cases finite
  | infinite negative => cases finite
  | finite negative code => simp [Comparison.sameValue, Double.same]

end SameTree

namespace Comparison

variable {expression : Text} {tokens : List Token} {cap? : Option Int} {strategy : Strategy}

theorem attempt_of_refused {cause : SyntaxCause} {position : Int}
    (refused : strategy.parse tokens cap? = .error (.syntactic cause position)) :
    attempt expression tokens cap? strategy =
      .ok ⟨none, none,
        some ((⟨.parser, cause.message, position⟩ : Diagnosis).failure expression)⟩ := by
  rw [attempt, refused]
  rfl

theorem attempt_of_failed {parsed : Parsed} (accepted : strategy.parse tokens cap? = .ok parsed)
    {cause : EvaluationCause} (failed : Evaluation.value parsed.tree = .error (.evaluation cause)) :
    attempt expression tokens cap? strategy =
      .ok ⟨some parsed, none,
        some ((⟨.evaluator, cause.message, noPosition⟩ : Diagnosis).failure expression)⟩ := by
  simp only [attempt, accepted, failed]
  rfl

theorem attempt_of_evaluated {parsed : Parsed} (accepted : strategy.parse tokens cap? = .ok parsed)
    {result : Double} (evaluated : Evaluation.value parsed.tree = .ok result) :
    attempt expression tokens cap? strategy = .ok ⟨some parsed, some result, none⟩ := by
  simp only [attempt, accepted, evaluated]

/-- What a comparison of the strategies is like: they agree, a comparison without failures found the
same tree and the same value, and a failure of the evaluator is the same for both. -/
structure Agrees (comparison : Comparison) : Prop where
  agree : comparison.agree = true
  same : comparison.failures = [] → comparison.sameTree = true ∧ comparison.sameResult = true
  identical : ∀ entry ∈ comparison.failures, entry.2.category = .evaluator →
    comparison.failureOf? .topDown = some entry.2 ∧ comparison.failureOf? .bottomUp = some entry.2

/-- Both strategies failed in the same stage; where they evaluated a tree it was the same one. -/
theorem agrees_of_failures {comparison : Comparison} {topDown bottomUp : Failure}
    (both : comparison.failures =
      [(Strategy.topDown.name, topDown), (Strategy.bottomUp.name, bottomUp)])
    (category : topDown.category = bottomUp.category)
    (evaluator : topDown.category = .evaluator → topDown = bottomUp ∧ comparison.sameTree = true) :
    Agrees comparison := by
  have topDownFailure : comparison.failureOf? .topDown = some topDown := by
    rw [failureOf?, both]
    rfl
  have bottomUpFailure : comparison.failureOf? .bottomUp = some bottomUp := by
    rw [failureOf?, both]
    rfl
  constructor
  · have anyFailed : comparison.failed = true := by simp [failed, both]
    rw [agree, anyFailed, if_pos rfl, topDownFailure, bottomUpFailure]
    by_cases inEvaluator : topDown.category = .evaluator
    · simp [failuresAgree, category, (evaluator inEvaluator).2]
    · simp [failuresAgree, ← category, inEvaluator]
  · intro noFailure
    simp [both] at noFailure
  · intro entry member inEvaluator
    rw [topDownFailure, bottomUpFailure]
    simp only [both, List.mem_cons, List.not_mem_nil, or_false] at member
    rcases member with rfl | rfl
    · obtain ⟨rfl, -⟩ := evaluator inEvaluator
      exact ⟨rfl, rfl⟩
    · obtain ⟨rfl, -⟩ := evaluator (category.trans inEvaluator)
      exact ⟨rfl, rfl⟩

theorem agrees_of_values {comparison : Comparison} (noFailure : comparison.failures = [])
    (sameTree : comparison.sameTree = true) (sameResult : comparison.sameResult = true) :
    Agrees comparison where
  agree := by simp [agree, failed, noFailure, sameTree, sameResult]
  same _ := ⟨sameTree, sameResult⟩
  identical := by simp [noFailure]

theorem agrees_of_trees {topDown bottomUp : Parsed} (same : topDown.tree = bottomUp.tree)
    (legal : topDown.tree.IsLegal)
    (topDownAccepts : Strategy.topDown.parse tokens cap? = .ok topDown)
    (bottomUpAccepts : Strategy.bottomUp.parse tokens cap? = .ok bottomUp)
    {comparison : Comparison}
    (compared : (do
      let left ← attempt expression tokens cap? .topDown
      let right ← attempt expression tokens cap? .bottomUp
      ofAttempts expression left right) = .ok comparison) : Agrees comparison := by
  cases value : Evaluation.value topDown.tree with
  | error fault =>
      obtain ⟨cause, rfl, -⟩ := Evaluation.value_error_of_isLegal legal value
      rw [attempt_of_failed topDownAccepts value,
        attempt_of_failed bottomUpAccepts (same ▸ value)] at compared
      change ofAttempts expression _ _ = .ok comparison at compared
      obtain ⟨sameTree, trees, compared⟩ := except_bind_ok compared
      change topDown.tree.same bottomUp.tree = _ at trees
      rw [← same] at trees
      cases compared
      exact agrees_of_failures rfl rfl fun _ => ⟨rfl, legal.sameWithin_self trees⟩
  | ok result =>
      have finite := (Evaluation.value_ok_of_isLegal legal value).1
      rw [attempt_of_evaluated topDownAccepts value,
        attempt_of_evaluated bottomUpAccepts (same ▸ value)] at compared
      change ofAttempts expression _ _ = .ok comparison at compared
      obtain ⟨sameTree, trees, compared⟩ := except_bind_ok compared
      change topDown.tree.same bottomUp.tree = _ at trees
      rw [← same] at trees
      cases compared
      exact agrees_of_values rfl (legal.sameWithin_self trees) (sameValue_self finite)

end Comparison

/-- Whether the tokens of an expression can be parsed in the turns that are allowed. -/
def CapSuffices (expression : Text) (cap? : Option Int) : Prop :=
  ∀ tokens, Token.tokenize expression = .ok tokens → ShiftReduce.Suffices tokens.length cap?

theorem compareStrategies_agrees {expression : Text} {cap? : Option Int}
    (enough : CapSuffices expression cap?) {comparison : Comparison}
    (compared : compareStrategies expression cap? = .ok comparison) : comparison.Agrees := by
  unfold compareStrategies at compared
  cases lexed : Token.tokenize expression with
  | error fault =>
      obtain ⟨cause, position, rfl, -⟩ := Token.tokenize_isLexical lexed
      rw [lexed] at compared
      cases compared
      exact Comparison.agrees_of_failures rfl rfl nofun
  | ok tokens =>
      rw [lexed] at compared
      have wellFormed := Token.tokenize_wellFormed lexed
      have topDown := Descent.parse_followsGrammar wellFormed
      have bottomUp := ShiftReduce.parse_followsGrammar wellFormed (enough tokens lexed)
      cases answer : Descent.parse tokens with
      | ok parsed =>
          obtain ⟨parsedToo, answerToo, same⟩ := topDown.exists_of_ok bottomUp answer
          exact Comparison.agrees_of_trees same (topDown.reads answer).isLegal answer answerToo
            compared
      | error fault =>
          cases answerToo : ShiftReduce.parse tokens cap? with
          | ok parsedToo =>
              obtain ⟨parsed, accepted, -⟩ := bottomUp.exists_of_ok topDown answerToo
              cases answer.symm.trans accepted
          | error faultToo =>
              obtain ⟨cause, position, refused⟩ := topDown.isSyntactic answer
              obtain ⟨causeToo, positionToo, refusedToo⟩ := bottomUp.isSyntactic answerToo
              have attempted : Comparison.attempt expression tokens cap? .topDown = _ :=
                Comparison.attempt_of_refused refused
              have attemptedToo : Comparison.attempt expression tokens cap? .bottomUp = _ :=
                Comparison.attempt_of_refused refusedToo
              simp only [attempted, attemptedToo] at compared
              cases compared
              exact Comparison.agrees_of_failures rfl rfl nofun

theorem compareBatch_agrees {expressions : List Text} {cap? : Option Int}
    (enough : ∀ expression ∈ expressions, CapSuffices expression cap?) {batch : Batch}
    (compared : compareBatch expressions cap? = .ok batch) :
    batch.rows.length = expressions.length ∧ ∀ row ∈ batch.rows, row.Agrees := by
  obtain ⟨rows, rowsCompared, returned⟩ := except_bind_ok compared
  cases returned
  refine ⟨(forall₂_of_mapM rowsCompared).length_eq.symm, fun row member => ?_⟩
  obtain ⟨expression, isExpression, rowCompared⟩ := exists_of_mem_mapM rowsCompared member
  exact compareStrategies_agrees (enough expression isExpression) rowCompared

theorem Averages.nearest_keepsAnswers : nearest.KeepsAnswers := by
  intro answer count some
  simp only [nearest, List.count_replicate, List.length_replicate]
  cases answer with
  | true => simpa using Double.ofRatio_mul_self some 1
  | false => simpa using Double.ofRatio_mul_self some 0

theorem Batch.rate_of_all {batch : Batch} {averages : Averages} (keeps : averages.KeepsAnswers)
    {holds : Comparison → Bool} (some : batch.rows ≠ [])
    (all : ∀ row ∈ batch.rows, holds row = true) : batch.rate averages holds = .ofInt 1 := by
  have answers : batch.rows.map holds = List.replicate batch.rows.length true :=
    List.map_eq_replicate_iff.mpr all
  have positive := List.length_pos_iff.mpr some
  rw [rate, answers, if_neg (by simpa using some)]
  exact keeps true _ positive

/-- When no cap keeps the bottom-up parser from finishing, a comparison that comes to an end is
never a disagreement: without failures the trees and the values are the same, and failures of the
evaluator are the same. So a batch has no disagreements, and an agreement rate of one if it has any
rows and the average of equal answers is that answer. -/
theorem strategies_never_disagree :
    (∀ expression cap? comparison, CapSuffices expression cap? →
      compareStrategies expression cap? = .ok comparison →
      comparison.agree = true ∧
        (comparison.failures = [] → comparison.sameTree = true ∧ comparison.sameResult = true) ∧
        ∀ entry ∈ comparison.failures, entry.2.category = .evaluator →
          comparison.failureOf? .topDown = some entry.2 ∧
            comparison.failureOf? .bottomUp = some entry.2) ∧
      ∀ expressions cap? batch, (∀ expression ∈ expressions, CapSuffices expression cap?) →
        compareBatch expressions cap? = .ok batch →
        batch.disagreements = [] ∧
          ∀ averages : Averages, averages.KeepsAnswers → expressions ≠ [] →
            batch.agreementRate averages = .ofInt 1 := by
  constructor
  · intro expression cap? comparison enough compared
    have agrees := compareStrategies_agrees enough compared
    exact ⟨agrees.agree, agrees.same, agrees.identical⟩
  · intro expressions cap? batch enough compared
    obtain ⟨length, agrees⟩ := compareBatch_agrees enough compared
    constructor
    · simpa [Batch.disagreements] using fun row member => (agrees row member).agree
    · intro averages keeps some
      refine Batch.rate_of_all keeps ?_ fun row member => (agrees row member).agree
      rw [← List.length_pos_iff] at some ⊢
      omega

theorem onePlusTwo_comparison :
    (∃ comparison, compareStrategies "1+2" (some 13) = .ok comparison ∧ comparison.agree = true) ∧
      ∃ batch, compareBatch ["1+2"] (some 13) = .ok batch ∧ batch.disagreements = [] ∧
        batch.agreementRate .nearest = .ofInt 1 := by
  have lexed : Token.tokenize "1+2" = .ok onePlusTwo := by decide +kernel
  have enough : CapSuffices "1+2" (some 13) := by
    intro tokens lexedToo
    obtain rfl := Except.ok.inj (lexed.symm.trans lexedToo)
    exact (by decide : 4 * ((4 : Nat) : Int) - 3 ≤ 13)
  constructor
  · have ends : (compareStrategies "1+2" (some 13)).isOk = true := by decide +kernel
    cases compared : compareStrategies "1+2" (some 13) with
    | error fault =>
        rw [compared] at ends
        cases ends
    | ok comparison =>
        exact ⟨comparison, rfl, (strategies_never_disagree.1 _ _ _ enough compared).1⟩
  · have ends : (compareBatch ["1+2"] (some 13)).isOk = true := by decide +kernel
    cases compared : compareBatch ["1+2"] (some 13) with
    | error fault =>
        rw [compared] at ends
        cases ends
    | ok batch =>
        have enoughForAll : ∀ expression ∈ (["1+2"] : List Text),
            CapSuffices expression (some 13) := by
          intro expression member
          obtain rfl := List.mem_singleton.mp member
          exact enough
        obtain ⟨noneDisagree, rate⟩ :=
          strategies_never_disagree.2 _ _ _ enoughForAll compared
        exact ⟨batch, rfl, noneDisagree, rate .nearest Averages.nearest_keepsAnswers (by simp)⟩

end Reckon
