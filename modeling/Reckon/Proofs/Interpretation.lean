import Reckon.Interpretation
import Reckon.Proofs.Dumps
import Reckon.Proofs.Parsing

/-!
# What interpreting a source can end with

The stages of an interpretation keep each other's promises: the lexer returns well-formed streams,
the parsers return legal trees of them, and the values of legal trees are finite. So the checks by
which a stage guards itself against the one before it never fail, whatever the source is.
-/

set_option autoImplicit false

namespace Reckon

/-- The faults of checks that guard a stage against its caller, and those that no stage reports. -/
def Fault.isDefensive : Fault → Bool
  | .lexical cause _ => cause == .noTokens
  | .syntactic cause _ => cause.isDefensive
  | .evaluation cause => cause.isDefensive
  | .unreadableNumeral _ | .outOfRange | .callDepth | .unknownStrategy _ => true

/-- A tree that a source is parsed to has more levels than a walk can visit. -/
def IsTooDeep (expression strategyName : Text) (cap? : Option Int) : Prop :=
  ∃ tokens strategy parsed, Token.tokenize expression = .ok tokens ∧
    Strategy.ofName strategyName = .ok strategy ∧ strategy.parse tokens cap? = .ok parsed ∧
    depthLimit < parsed.tree.depth

/-- A fault that a stage may end with: it is about the source, and neither a reached cap nor a
limit of depth is reported without cause. -/
def IsForeseen (expression strategyName : Text) (cap? : Option Int) (fault : Fault) : Prop :=
  fault.diagnosis?.isSome = true ∧ fault.isDefensive = false ∧
    (∀ position, fault = .syntactic .capReached position → cap?.isSome = true) ∧
    (fault = .evaluation .tooDeep → IsTooDeep expression strategyName cap?)

section Stages

variable {expression strategyName : Text} {cap? : Option Int} {fault : Fault}

theorem isForeseen_of_lexing (refused : Token.tokenize expression = .error fault) :
    IsForeseen expression strategyName cap? fault := by
  obtain ⟨cause, position, rfl, noDefence⟩ := Token.tokenize_isLexical refused
  exact ⟨rfl, by simpa [Fault.isDefensive] using noDefence, nofun, nofun⟩

theorem isForeseen_of_parsing {tokens : List Token} {strategy : Strategy}
    (wellFormed : WellFormed tokens) (refused : strategy.parse tokens cap? = .error fault) :
    IsForeseen expression strategyName cap? fault := by
  rcases strategy.parse_refuses wellFormed refused with refuses | ⟨⟨token, -, rfl⟩, asked⟩
  · obtain ⟨cause, token, -, rfl, noDefence, noCap⟩ := refuses
    refine ⟨rfl, noDefence, ?_, nofun⟩
    rintro position ⟨⟩
    exact absurd rfl noCap
  · exact ⟨rfl, rfl, fun _ _ => asked, nofun⟩

theorem isForeseen_of_evaluation {tokens : List Token} {strategy : Strategy} {parsed : Parsed}
    (lexed : Token.tokenize expression = .ok tokens)
    (named : Strategy.ofName strategyName = .ok strategy)
    (accepted : strategy.parse tokens cap? = .ok parsed) (legal : parsed.tree.IsLegal)
    (failed : Evaluation.value parsed.tree = .error fault) :
    IsForeseen expression strategyName cap? fault := by
  obtain ⟨cause, rfl, noDefence, deep⟩ := Evaluation.value_error_of_isLegal legal failed
  refine ⟨rfl, noDefence, nofun, ?_⟩
  rintro ⟨⟩
  exact ⟨tokens, strategy, parsed, lexed, named, accepted, deep rfl⟩

/-- The first stage that fails settles the outcome: the lexer, the look for a strategy, its parser,
or one of the walks of the evaluator. -/
theorem interpret_error_cases (refused : interpret expression strategyName cap? = .error fault) :
    Token.tokenize expression = .error fault ∨
      ∃ tokens, Token.tokenize expression = .ok tokens ∧
        ((∃ name, fault = .unknownStrategy name) ∨
          (∃ strategy : Strategy, strategy.parse tokens cap? = .error fault) ∨
          ∃ cause, fault = .evaluation cause) := by
  rcases except_bind_error refused with lexing | ⟨tokens, lexed, refused⟩
  · exact .inl lexing
  refine .inr ⟨tokens, lexed, ?_⟩
  rcases except_bind_error refused with naming | ⟨strategy, named, refused⟩
  · unfold Strategy.ofName at naming
    split at naming <;> cases naming
    exact .inl ⟨_, rfl⟩
  rcases except_bind_error refused with parsing | ⟨parsed, accepted, refused⟩
  · exact .inr (.inl ⟨strategy, parsing⟩)
  have legal := (strategy.parse_reads (Token.tokenize_wellFormed lexed) accepted).isLegal
  rcases except_bind_error refused with failed | ⟨result, evaluated, refused⟩
  · obtain ⟨cause, isEvaluation, -⟩ := Evaluation.value_error_of_isLegal legal failed
    exact .inr (.inr ⟨cause, isEvaluation⟩)
  · -- What has a value has a trace and a dump, so the other walks do not fail.
    obtain ⟨traced, tracing, -⟩ := Evaluation.trace_of_value evaluated
    obtain ⟨parseTree, dumped⟩ := Tree.exists_dump_of_value evaluated 0
    rw [tracing] at refused
    simp only [dumped, bind, Except.bind] at refused
    cases refused

end Stages

/-- Whatever the source and the cap are, interpreting with a known strategy returns a finite result
of a tree that every walk can visit, or reports a fault about the source. No defensive check fails,
a cap is only reached when one was asked for, and an evaluation is only too deep for a tree with too
many levels. -/
theorem interpret_outcome (expression : Text) (cap? : Option Int) {strategyName : Text}
    (known : strategyName = "top-down" ∨ strategyName = "bottom-up") :
    match interpret expression strategyName cap? with
    | .ok report => report.result.isFinite = true ∧ report.tree.checkDepth = .ok ()
    | .error fault =>
      fault.diagnosis?.isSome = true ∧ fault.isDefensive = false ∧
        (∀ position, fault = .syntactic .capReached position → cap?.isSome = true) ∧
        (fault = .evaluation .tooDeep → IsTooDeep expression strategyName cap?) := by
  obtain ⟨strategy, named⟩ : ∃ strategy, Strategy.ofName strategyName = .ok strategy := by
    rcases known with rfl | rfl
    · exact ⟨.topDown, by decide⟩
    · exact ⟨.bottomUp, by decide⟩
  unfold interpret
  cases lexed : Token.tokenize expression with
  | error fault => exact isForeseen_of_lexing lexed
  | ok tokens =>
      have wellFormed := Token.tokenize_wellFormed lexed
      simp only [bind, Except.bind, named]
      cases answer : strategy.parse tokens cap? with
      | error fault => exact isForeseen_of_parsing wellFormed answer
      | ok parsed =>
          have legal := (strategy.parse_reads wellFormed answer).isLegal
          simp only
          cases evaluated : Evaluation.value parsed.tree with
          | error fault => exact isForeseen_of_evaluation lexed named answer legal evaluated
          | ok result =>
              obtain ⟨traced, tracing, -⟩ := Evaluation.trace_of_value evaluated
              obtain ⟨parseTree, dumped⟩ := Tree.exists_dump_of_value evaluated 0
              simp only [tracing, dumped]
              obtain ⟨finite, shallow⟩ := Evaluation.value_ok_of_isLegal legal evaluated
              exact ⟨finite, if_pos shallow⟩

theorem interpret_onePlusTwo :
    ∃ report, interpret "1+2" "top-down" none = .ok report ∧ report.result.isFinite = true ∧
      report.tree.checkDepth = .ok () := by
  have succeeds : (interpret "1+2" "top-down" none).isOk = true := by decide +kernel
  have outcome := interpret_outcome "1+2" none (.inl rfl : ("top-down" : Text) = "top-down" ∨ _)
  cases answer : interpret "1+2" "top-down" none with
  | error fault =>
      rw [answer] at succeeds
      cases succeeds
  | ok report =>
      rw [answer] at outcome
      exact ⟨report, rfl, outcome⟩

end Reckon
