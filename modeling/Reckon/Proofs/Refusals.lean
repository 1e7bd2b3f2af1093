import Reckon.Proofs.Lexing
import Reckon.Proofs.Parsing
import Reckon.Proofs.ShiftReduce.Audit

/-!
# Where a stream is refused

The two parsers refuse the same streams but not at the same place. The descent stops at the first
token that no expression goes on with. The machine never stops in front of a token that it can
shift, so it refuses nothing before the end of input.
-/

set_option autoImplicit false

namespace Reckon

open Grammar (Nesting checkNesting maxNesting)

variable {tokens : List Token} {fault : Fault}

theorem Token.isUnbounded_of_finite {token : Token}
    (finite : token.kind = .number → token.value.isFinite = true) : token.isUnbounded = false := by
  by_cases kind : token.kind = .number
  · simp [isUnbounded, finite kind]
  · exact isUnbounded_of_kind_ne kind

theorem not_generated_of_refused (wellFormed : WellFormed tokens)
    (allowed : checkNesting tokens maxNesting = .ok ())
    (finite : ∀ token ∈ tokens, token.kind = .number → token.value.isFinite = true)
    (refused : Descent.parse tokens = .error fault) : ¬ Generated tokens := by
  rintro ⟨derivation, spans⟩
  have bounded := fun token member => Token.isUnbounded_of_finite (finite token member)
  obtain ⟨parsed, accepted, -⟩ := (Descent.parse_followsGrammar wellFormed).exists_of_outcome spans
    allowed (spans.outcome_eq bounded)
  cases refused.symm.trans accepted

/-- The tokens of `(1+*2`. -/
def strayStar : List Token :=
  [⟨.leftParenthesis, "(", 0⟩, ⟨.number, "1", 1⟩, ⟨.operator, "+", 2⟩, ⟨.operator, "*", 3⟩,
    ⟨.number, "2", 4⟩, ⟨.endOfInput, "", 5⟩]

theorem tokenize_strayStar : Token.tokenize "(1+*2" = .ok strayStar := by decide +kernel

theorem finite_strayStar :
    ∀ token ∈ strayStar, token.kind = .number → token.value.isFinite = true := by
  decide +kernel

/-- A token that is out of place from the start is the first one that no expression goes on with,
and an end of input that is out of place is not behind an expression. -/
theorem Grammar.Nesting.Misplaced.impossible {token : Token}
    (misplaced : Nesting.start.Misplaced tokens token) :
    ∃ front rest, tokens = front ++ token :: rest ∧ Continuable front ∧
      ¬ Continuable (front ++ [token]) ∧ (token.isEnd = true → ¬ IsExpression front) := by
  obtain ⟨front, rest, shape, takes, misfit, notClosed⟩ := misplaced
  refine ⟨front, rest, shape, continuable_iff_takes.mpr takes, ?_, ?_⟩
  · intro continuable
    have takesBoth := continuable_iff_takes.mp continuable
    cases (takes_append_iff.mp takesBoth).2 with
    | cons fits => exact misfit fits
  · intro isLast expression
    exact notClosed isLast expression.closed

namespace Descent

/-- The top-down parser points at the earliest impossible token: the tokens before it can be
continued to an expression, and with it they cannot. The end of input is reported behind a part of
an expression that is not a whole one. -/
theorem parse_points_at_first_impossible_token {source : Text}
    (lexed : Token.tokenize source = .ok tokens)
    (allowed : checkNesting tokens maxNesting = .ok ())
    (finite : ∀ token ∈ tokens, token.kind = .number → token.value.isFinite = true)
    (refused : parse tokens = .error fault) :
    ∃ front token rest cause, tokens = front ++ token :: rest ∧
      fault = .syntactic cause token.position ∧ Continuable front ∧
      ¬ Continuable (front ++ [token]) ∧ (token.isEnd = true → ¬ IsExpression front) := by
  obtain ⟨cause, token, misplaced | ⟨member, unbounded⟩, shape, -⟩ :=
    parse_misreads (Token.tokenize_wellFormed lexed) allowed refused
  · obtain ⟨front, rest, split, impossible⟩ := misplaced.impossible
    exact ⟨front, token, rest, cause, split, shape, impossible⟩
  · rw [Token.isUnbounded_of_finite (finite token member)] at unbounded
    cases unbounded

theorem parse_strayStar :
    parse strayStar = .error (.syntactic (.strayToken .operator "*") 3) := by
  have refuses : (parse strayStar).map Parsed.tree =
      .error (.syntactic (.strayToken .operator "*") 3) := by decide +kernel
  cases answer : parse strayStar with
  | ok parsed =>
      rw [answer] at refuses
      cases refuses
  | error fault =>
      rw [answer] at refuses
      cases refuses
      rfl

theorem strayStar_is_impossible_at_the_star :
    parse strayStar = .error (.syntactic (.strayToken .operator "*") 3) ∧
      ∃ front token rest, strayStar = front ++ token :: rest ∧ token.position = 3 ∧
        Continuable front ∧ ¬ Continuable (front ++ [token]) := by
  refine ⟨parse_strayStar, ?_⟩
  obtain ⟨front, token, rest, cause, split, shape, continuable, impossible, -⟩ :=
    parse_points_at_first_impossible_token tokenize_strayStar (by decide) finite_strayStar
      parse_strayStar
  exact ⟨front, token, rest, split, (Fault.syntactic.inj shape).2.symm, continuable, impossible⟩

end Descent

namespace ShiftReduce

variable {seen : List Token} {machine next : ShiftReduce}

/-- Where every numeral is finite, a sound machine is stopped by the end of input only. -/
theorem Sound.stuck_of_turn_error (sound : Sound tokens machine seen)
    (bounded : ∀ token ∈ tokens, token.isUnbounded = false)
    (failed : turn Rule.table machine = .error fault next) :
    ∃ last : Token, last.isEnd = true ∧ machine.unread.tokens = [last] ∧ next = machine ∧
      fault = .syntactic .endsTooSoon last.position := by
  have outcome := turn_outcome Rule.table machine
  rw [failed] at outcome
  cases outcome with
  | starved unread => exact absurd unread sound.terminated.ne_nil
  | bare _ _ single =>
      obtain ⟨derivation, made, isNode, -⟩ := sound.derivation_of_single single
      cases isNode
  | unmade _ found unmade =>
      obtain ⟨numeral, inSeen, unbounded, -⟩ := (sound.keeps found).overflows unmade
      have inTokens : numeral ∈ tokens := by
        rw [sound.tokens_eq]
        exact List.mem_append_left _ inSeen
      rw [bounded numeral inTokens] at unbounded
      cases unbounded
  | @stuck last rest unread isLast =>
      have terminated := unread ▸ sound.terminated
      obtain rfl := terminated.eq_nil_of_last (Token.isEnd_iff.mp isLast)
      exact ⟨last, isLast, unread, rfl, rfl⟩

/-- A run that fails on finite numerals, and not at its cap, has shifted all that there is to
shift. -/
theorem run_stuck (wellFormed : WellFormed tokens)
    (bounded : ∀ token ∈ tokens, token.isUnbounded = false)
    (failed : run Rule.table (allowance tokens none) (opening tokens) = .error fault machine) :
    ∃ lexemes last, tokens = lexemes ++ [last] ∧ last.isEnd = true ∧
      machine.unread.tokens = [last] ∧ machine.shifts = lexemes.length ∧
      fault = .syntactic .endsTooSoon last.position := by
  obtain ⟨turns, stopped, reaches, ends⟩ := exists_of_run_error failed
  obtain ⟨_, sound⟩ := Sound.reaches ⟨[], sound_opening wellFormed⟩ reaches
  rcases ends with ⟨-, fails⟩ | ⟨-, fails⟩
  · obtain ⟨last, isLast, unread, rfl, shape⟩ := sound.stuck_of_turn_error bounded fails
    obtain ⟨lexemes, split, -, shifts⟩ :=
      ((Audited.opening Rule.table tokens).reaches reaches).unread
    rw [unread] at split
    exact ⟨lexemes, last, split, isLast, unread, shifts, shape⟩
  · obtain ⟨token, rest, unread⟩ := List.exists_cons_of_ne_nil sound.terminated.ne_nil
    rw [run_zero unread] at fails
    cases fails
    exact absurd failed (run_ne_capReached (suffices_none tokens.length))

/-- The bottom-up parser refuses a stream that the grammar does not generate at its end and nowhere
else: every other token has been shifted by then, and the fault is always the same one. -/
theorem parse_refuses_only_at_the_end (wellFormed : WellFormed tokens)
    (allowed : checkNesting tokens maxNesting = .ok ())
    (finite : ∀ token ∈ tokens, token.kind = .number → token.value.isFinite = true)
    (foreign : ¬ Generated tokens) :
    ∃ lexemes last machine, tokens = lexemes ++ [last] ∧ last.isEnd = true ∧
      run Rule.table (allowance tokens none) (opening tokens) =
        .error (.syntactic .endsTooSoon last.position) machine ∧
      machine.unread.tokens = [last] ∧ machine.shifts = lexemes.length ∧
      parse tokens none = .error (.syntactic .endsTooSoon last.position) ∧
      (Fault.syntactic .endsTooSoon last.position).diagnosis? =
        some ⟨.parser, "Syntax error: unexpected end of expression", last.position⟩ := by
  have answer : parse tokens none = _ := parse_of_allowed wellFormed allowed
  cases outcome : run Rule.table (allowance tokens none) (opening tokens) with
  | ok tree machine =>
      rw [outcome] at answer
      exact absurd (parse_reads wellFormed answer).generated foreign
  | error fault machine =>
      rw [outcome] at answer
      have bounded := fun token member => Token.isUnbounded_of_finite (finite token member)
      obtain ⟨lexemes, last, split, isLast, unread, shifts, rfl⟩ :=
        run_stuck wellFormed bounded outcome
      exact ⟨lexemes, last, machine, split, isLast, rfl, unread, shifts, answer, rfl⟩

theorem strayStar_is_shifted_to_its_end :
    ∃ machine, run Rule.table (allowance strayStar none) (opening strayStar) =
        .error (.syntactic .endsTooSoon 5) machine ∧ machine.shifts = 5 ∧
      parse strayStar none = .error (.syntactic .endsTooSoon 5) := by
  have wellFormed := Token.tokenize_wellFormed tokenize_strayStar
  have foreign : ¬ Generated strayStar :=
    not_generated_of_refused wellFormed (by decide) finite_strayStar Descent.parse_strayStar
  obtain ⟨lexemes, last, machine, split, -, stuck, -, shifts, refused, -⟩ :=
    parse_refuses_only_at_the_end wellFormed (by decide) finite_strayStar foreign
  have shape : strayStar = strayStar.take 5 ++ [⟨.endOfInput, "", 5⟩] := by decide
  obtain ⟨rfl, same⟩ := List.append_inj' (shape.symm.trans split) rfl
  cases same
  exact ⟨machine, stuck, shifts, refused⟩

end ShiftReduce

end Reckon
