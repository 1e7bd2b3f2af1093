import Reckon.Parsing
import Reckon.Proofs.Descent.Language
import Reckon.Proofs.Lexing
import Reckon.Proofs.ShiftReduce.Language

/-!
# Both parsers of the language

The two parsers share no code beyond the checks that they make first, and both follow the grammar.
So they agree on every well-formed stream: on its tree when it has one, on the fault when the
grammar generates the stream, and on its refusal otherwise. Where nothing but the grammar can refuse
a stream the trees of the top-down parser are exactly the meanings of derivations.
-/

set_option autoImplicit false

namespace Reckon

open Grammar (checkNesting maxNesting)

variable {tokens : List Token}

/-- The fault of a stream of the language: it is nested too deeply, or else a numeral is beyond the
finite doubles, and the first such numeral is reported. -/
def IsLimitFault (tokens : List Token) (fault : Fault) : Prop :=
  (∃ position, checkNesting tokens maxNesting = .error fault ∧
      fault = .syntactic .tooDeep position) ∨
    (checkNesting tokens maxNesting = .ok () ∧ ∃ numeral,
      tokens.find? Token.isUnbounded = some numeral ∧
      fault = .syntactic (.unboundedNumeral numeral.text) numeral.position)

theorem Grammar.Nesting.tooDeep_of_check {limit : Int} {nesting : Nesting} {fault : Fault}
    (failed : nesting.check limit tokens = .error fault) :
    ∃ position, fault = .syntactic .tooDeep position := by
  induction tokens generalizing nesting with
  | nil => cases failed
  | cons token rest ih =>
      rw [check] at failed
      split at failed
      · cases failed
        exact ⟨token.position, rfl⟩
      · exact ih failed

theorem Derivation.Spans.checkNumerals_eq {derivation : Derivation .expression}
    (spans : derivation.Spans tokens) :
    checkNumerals derivation.tokens = checkNumerals tokens := by
  obtain ⟨last, isLast, rfl⟩ := spans
  have bounded : last.isUnbounded = false := Token.isUnbounded_of_kind_ne (by simp [isLast])
  rw [checkNumerals_append, checkNumerals_singleton, bounded]
  cases checkNumerals derivation.tokens <;> rfl

theorem Derivation.Spans.outcome_eq {derivation : Derivation .expression}
    (spans : derivation.Spans tokens) (bounded : ∀ token ∈ tokens, token.isUnbounded = false) :
    derivation.outcome = .ok derivation.tree := by
  rw [Derivation.outcome_eq, spans.checkNumerals_eq, checkNumerals_eq_ok_iff.mpr bounded]
  rfl

theorem Derivation.Spans.isLimitFault {derivation : Derivation .expression}
    (spans : derivation.Spans tokens) (allowed : checkNesting tokens maxNesting = .ok ())
    {fault : Fault} (refused : derivation.outcome = .error fault) : IsLimitFault tokens fault := by
  rw [Derivation.outcome_eq, spans.checkNumerals_eq] at refused
  unfold checkNumerals at refused
  cases found : tokens.find? Token.isUnbounded with
  | none =>
      rw [found] at refused
      cases refused
  | some numeral =>
      rw [found] at refused
      cases refused
      exact .inr ⟨allowed, numeral, found, rfl⟩

namespace FollowsGrammar

variable {answer other : Except Fault Parsed}

theorem map_eq (follows : FollowsGrammar tokens answer) (otherFollows : FollowsGrammar tokens other)
    (generated : Generated tokens) : answer.map Parsed.tree = other.map Parsed.tree := by
  obtain ⟨derivation, spans⟩ := generated
  rw [follows.follows spans, otherFollows.follows spans]

theorem exists_of_ok (follows : FollowsGrammar tokens answer)
    (otherFollows : FollowsGrammar tokens other) {parsed : Parsed}
    (accepted : answer = .ok parsed) :
    ∃ parsedToo, other = .ok parsedToo ∧ parsed.tree = parsedToo.tree := by
  have same := follows.map_eq otherFollows (follows.reads accepted).generated
  rw [accepted] at same
  cases other with
  | error fault => cases same
  | ok parsedToo => exact ⟨parsedToo, rfl, Except.ok.inj same⟩

theorem eq_of_means (follows : FollowsGrammar tokens answer) {parsed : Parsed}
    (accepted : answer = .ok parsed) {tree : Tree Text} (means : Means tokens tree) :
    parsed.tree = tree := by
  obtain ⟨derivation, spans, outcome⟩ := means
  have same := follows.follows spans
  rw [accepted, outcome] at same
  cases nested : checkNesting tokens maxNesting with
  | error tooDeep =>
      rw [nested] at same
      cases same
  | ok _ =>
      rw [nested] at same
      exact Except.ok.inj same

theorem exists_of_outcome (follows : FollowsGrammar tokens answer)
    {derivation : Derivation .expression} (spans : derivation.Spans tokens)
    (allowed : checkNesting tokens maxNesting = .ok ()) {tree : Tree Text}
    (outcome : derivation.outcome = .ok tree) :
    ∃ parsed, answer = .ok parsed ∧ parsed.tree = tree := by
  have found := follows.follows spans
  rw [allowed, outcome] at found
  cases answer with
  | error fault => cases found
  | ok parsed => exact ⟨parsed, rfl, Except.ok.inj found⟩

theorem error_of_generated (follows : FollowsGrammar tokens answer)
    (otherFollows : FollowsGrammar tokens other) (generated : Generated tokens) {fault : Fault}
    (refused : answer = .error fault) : other = .error fault := by
  have same := follows.map_eq otherFollows generated
  rw [refused] at same
  cases other with
  | ok parsed => cases same
  | error faultToo =>
      obtain rfl := Except.error.inj same
      rfl

theorem isLimitFault (follows : FollowsGrammar tokens answer) (generated : Generated tokens)
    {fault : Fault} (refused : answer = .error fault) : IsLimitFault tokens fault := by
  obtain ⟨derivation, spans⟩ := generated
  have outcome := follows.follows spans
  rw [refused] at outcome
  cases nested : checkNesting tokens maxNesting with
  | error tooDeep =>
      rw [nested] at outcome
      obtain rfl := Except.error.inj outcome
      obtain ⟨position, shape⟩ := Grammar.Nesting.tooDeep_of_check nested
      exact .inl ⟨position, nested, shape⟩
  | ok _ =>
      rw [nested] at outcome
      exact spans.isLimitFault nested outcome.symm

theorem isSyntactic (follows : FollowsGrammar tokens answer) {fault : Fault}
    (refused : answer = .error fault) :
    ∃ cause position, answer = .error (.syntactic cause position) := by
  obtain ⟨cause, token, -, rfl, -⟩ := follows.refuses refused
  exact ⟨cause, token.position, refused⟩

end FollowsGrammar

theorem Means.isLegal {tree : Tree Text} (means : Means tokens tree) : tree.IsLegal := by
  obtain ⟨derivation, spans, outcome⟩ := means
  rw [Derivation.outcome_eq] at outcome
  cases checked : Derivation.checkNumerals derivation.tokens with
  | error fault =>
      rw [checked] at outcome
      cases outcome
  | ok _ =>
      rw [checked] at outcome
      cases outcome
      exact Derivation.tree_isLegal (Derivation.checkNumerals_eq_ok_iff.mp checked)

/-- A tree is only returned for a stream that it is the meaning of, by either strategy. -/
theorem Strategy.parse_reads (strategy : Strategy) (wellFormed : WellFormed tokens)
    {cap? : Option Int} {parsed : Parsed} (accepted : strategy.parse tokens cap? = .ok parsed) :
    Means tokens parsed.tree := by
  cases strategy with
  | topDown => exact (Descent.parse_followsGrammar wellFormed).reads accepted
  | bottomUp => exact ShiftReduce.parse_reads wellFormed accepted

theorem Strategy.parse_followsGrammar (strategy : Strategy) (wellFormed : WellFormed tokens) :
    FollowsGrammar tokens (strategy.parse tokens none) := by
  cases strategy with
  | topDown => exact Descent.parse_followsGrammar wellFormed
  | bottomUp =>
      exact ShiftReduce.parse_followsGrammar wellFormed (ShiftReduce.suffices_none tokens.length)

/-- A stream is refused for a cause that is about the source, or because a cap that was asked for is
reached. -/
theorem Strategy.parse_refuses (strategy : Strategy) (wellFormed : WellFormed tokens)
    {cap? : Option Int} {fault : Fault} (refused : strategy.parse tokens cap? = .error fault) :
    Refuses tokens fault ∨
      (∃ token ∈ tokens, fault = .syntactic .capReached token.position) ∧ cap?.isSome = true := by
  cases strategy with
  | topDown => exact .inl ((Descent.parse_followsGrammar wellFormed).refuses refused)
  | bottomUp =>
      rcases ShiftReduce.parse_refuses wellFormed refused with refuses | ⟨token, member, rfl⟩
      · exact .inl refuses
      · refine .inr ⟨⟨token, member, rfl⟩, ?_⟩
        cases cap? with
        | some cap => rfl
        | none =>
            have spared := ShiftReduce.parse_sparesCap (ShiftReduce.suffices_none tokens.length)
            exact absurd refused (spared token.position)

/-- Whatever is wrong with a stream, one of its tokens is pointed at. -/
theorem Strategy.exists_token_of_refused (strategy : Strategy) (wellFormed : WellFormed tokens)
    {cap? : Option Int} {fault : Fault} (refused : strategy.parse tokens cap? = .error fault) :
    ∃ cause, ∃ token ∈ tokens, fault = .syntactic cause token.position := by
  rcases strategy.parse_refuses wellFormed refused with
    ⟨cause, token, member, rfl, -⟩ | ⟨⟨token, member, rfl⟩, -⟩
  · exact ⟨cause, token, member, rfl⟩
  · exact ⟨.capReached, token, member, rfl⟩

def onePlusTwo : List Token :=
  [⟨.number, "1", 0⟩, ⟨.operator, "+", 1⟩, ⟨.number, "2", 2⟩, ⟨.endOfInput, "", 3⟩]

def onePlusTwoDerivation : Derivation .expression :=
  .sum (.alone (.single (.numeral ⟨.number, "1", 0⟩
      ⟨rfl, .whole (by simp : ['1'] ≠ []) (by simp [Text.isAsciiDigit])⟩)))
    ⟨.operator, "+", 1⟩ ⟨rfl, .inl rfl⟩
    (.single (.numeral ⟨.number, "2", 2⟩
      ⟨rfl, .whole (by simp : ['2'] ≠ []) (by simp [Text.isAsciiDigit])⟩))

theorem onePlusTwo_spans : onePlusTwoDerivation.Spans onePlusTwo :=
  ⟨⟨.endOfInput, "", 3⟩, rfl, rfl⟩

def unboundedNines : Token :=
  ⟨.number, Text.ofCharacters (List.replicate 400 '9'), 0⟩

def onlyNines : List Token :=
  [unboundedNines, ⟨.endOfInput, "", 400⟩]

theorem unboundedNines_isNumeral : unboundedNines.IsNumeral := by
  refine ⟨rfl, .whole (by decide) ?_⟩
  intro digit member
  rw [List.eq_of_mem_replicate member]
  decide

def onlyNinesDerivation : Derivation .expression :=
  .alone (.single (.numeral unboundedNines unboundedNines_isNumeral))

theorem onlyNines_spans : onlyNinesDerivation.Spans onlyNines :=
  ⟨⟨.endOfInput, "", 400⟩, rfl, rfl⟩

/-- The strategies are equivalent: on every stream that the lexer can return they find the same tree
or both report a syntax error, and on the streams of the language the error is the same one. -/
theorem descent_and_shiftReduce_agree :
    (∀ source tokens, Token.tokenize source = .ok tokens → WellFormed tokens) ∧
      ∀ tokens, WellFormed tokens →
        ((∃ topDown bottomUp, Descent.parse tokens = .ok topDown ∧
            ShiftReduce.parse tokens none = .ok bottomUp ∧ topDown.tree = bottomUp.tree) ∨
          (∃ cause position, Descent.parse tokens = .error (.syntactic cause position)) ∧
            ∃ cause position, ShiftReduce.parse tokens none = .error (.syntactic cause position)) ∧
        (Generated tokens → ∀ fault,
          (Descent.parse tokens = .error fault ↔ ShiftReduce.parse tokens none = .error fault) ∧
            (Descent.parse tokens = .error fault → IsLimitFault tokens fault)) := by
  refine ⟨fun source tokens => Token.tokenize_wellFormed, fun tokens wellFormed => ?_⟩
  have topDown := Descent.parse_followsGrammar wellFormed
  have bottomUp : FollowsGrammar tokens (ShiftReduce.parse tokens none) :=
    ShiftReduce.parse_followsGrammar wellFormed (ShiftReduce.suffices_none _)
  constructor
  · cases answer : Descent.parse tokens with
    | ok parsed =>
        obtain ⟨parsedToo, accepted, same⟩ := topDown.exists_of_ok bottomUp answer
        exact .inl ⟨parsed, parsedToo, rfl, accepted, same⟩
    | error fault =>
        right
        cases answerToo : ShiftReduce.parse tokens none with
        | ok parsedToo =>
            obtain ⟨parsed, accepted, -⟩ := bottomUp.exists_of_ok topDown answerToo
            cases answer.symm.trans accepted
        | error faultToo =>
            rw [← answer, ← answerToo]
            exact ⟨topDown.isSyntactic answer, bottomUp.isSyntactic answerToo⟩
  · intro generated fault
    exact ⟨⟨topDown.error_of_generated bottomUp generated,
      bottomUp.error_of_generated topDown generated⟩, topDown.isLimitFault generated⟩

theorem onePlusTwo_agreement :
    (∃ topDown bottomUp, Descent.parse onePlusTwo = .ok topDown ∧
        ShiftReduce.parse onePlusTwo none = .ok bottomUp ∧ topDown.tree = bottomUp.tree) ∧
      ∃ fault, Descent.parse onlyNines = .error fault ∧
        ShiftReduce.parse onlyNines none = .error fault ∧ IsLimitFault onlyNines fault := by
  constructor
  · rcases (descent_and_shiftReduce_agree.2 onePlusTwo onePlusTwo_spans.wellFormed).1 with
      agreement | ⟨⟨cause, position, refused⟩, -⟩
    · exact agreement
    · have accepts : (Descent.parse onePlusTwo).isOk = true := by decide +kernel
      rw [refused] at accepts
      cases accepts
  · have refuses : (Descent.parse onlyNines).isOk = false := by decide +kernel
    cases refused : Descent.parse onlyNines with
    | ok parsed =>
        rw [refused] at refuses
        cases refuses
    | error fault =>
        have generated : Generated onlyNines := ⟨onlyNinesDerivation, onlyNines_spans⟩
        obtain ⟨same, isLimit⟩ :=
          (descent_and_shiftReduce_agree.2 onlyNines onlyNines_spans.wellFormed).2 generated fault
        exact ⟨fault, rfl, same.mp refused, isLimit refused⟩

/-- The grammar is exact: where the nesting is allowed and every numeral is finite, the trees of the
top-down parser are the meanings of derivations of the stream, which are all the same tree, and a
stream without a derivation is refused. -/
theorem descent_reads_exactly_the_grammar (wellFormed : WellFormed tokens)
    (allowed : checkNesting tokens maxNesting = .ok ())
    (finite : ∀ token ∈ tokens, token.kind = .number → token.value.isFinite = true) :
    (∀ tree, (∃ parsed, Descent.parse tokens = .ok parsed ∧ parsed.tree = tree) ↔
        ∃ derivation : Derivation .expression, derivation.Spans tokens ∧ derivation.tree = tree) ∧
      (∀ left right : Derivation .expression, left.Spans tokens → right.Spans tokens →
        left.tree = right.tree) ∧
      (¬ Generated tokens →
        ∃ cause position, Descent.parse tokens = .error (.syntactic cause position)) := by
  have follows := Descent.parse_followsGrammar wellFormed
  have bounded : ∀ token ∈ tokens, token.isUnbounded = false := by
    intro token member
    have ofKind := finite token member
    by_cases kind : token.kind = .number
    · simp [Token.isUnbounded, ofKind kind]
    · exact Token.isUnbounded_of_kind_ne kind
  have meaning : ∀ {derivation : Derivation .expression}, derivation.Spans tokens →
      (Descent.parse tokens).map Parsed.tree = .ok derivation.tree := by
    intro derivation spans
    have outcome := follows.follows spans
    rw [allowed, spans.outcome_eq bounded] at outcome
    exact outcome
  refine ⟨fun tree => ⟨?_, ?_⟩, ?_, ?_⟩
  · rintro ⟨parsed, accepted, rfl⟩
    obtain ⟨derivation, spans, outcome⟩ := follows.reads accepted
    rw [spans.outcome_eq bounded] at outcome
    exact ⟨derivation, spans, Except.ok.inj outcome⟩
  · rintro ⟨derivation, spans, rfl⟩
    have found := meaning spans
    cases answer : Descent.parse tokens with
    | error fault =>
        rw [answer] at found
        cases found
    | ok parsed =>
        rw [answer] at found
        exact ⟨parsed, rfl, Except.ok.inj found⟩
  · intro left right leftSpans rightSpans
    exact Except.ok.inj ((meaning leftSpans).symm.trans (meaning rightSpans))
  · intro foreign
    cases answer : Descent.parse tokens with
    | ok parsed => exact absurd (follows.reads answer).generated foreign
    | error fault =>
        rw [← answer]
        exact follows.isSyntactic answer

theorem onePlusTwo_is_read :
    ∃ parsed, Descent.parse onePlusTwo = .ok parsed ∧
      parsed.tree = .binary "+" (.number (.ofInt 1)) (.number (.ofInt 2)) := by
  have finite : ∀ token ∈ onePlusTwo, token.kind = .number → token.value.isFinite = true := by
    decide +kernel
  have meaning : onePlusTwoDerivation.tree =
      .binary "+" (.number (.ofInt 1)) (.number (.ofInt 2)) := by decide +kernel
  obtain ⟨derived, -⟩ :=
    descent_reads_exactly_the_grammar onePlusTwo_spans.wellFormed (by decide) finite
  exact (derived _).mpr ⟨onePlusTwoDerivation, onePlusTwo_spans, meaning⟩

end Reckon
