import Reckon.Proofs.Descent.Completeness

/-!
# The language of the descent

The answers of the top-down parser follow the grammar. The nesting that it allows keeps it far
within the calls that a run can make inside each other.
-/

set_option autoImplicit false

namespace Reckon.Descent

open Grammar (Nesting checkNesting maxNesting)

variable {tokens : List Token}

/-- The state in which a stream is parsed. -/
def opening (tokens : List Token) : Descent :=
  start tokens (StepLog.empty.record .process "Starting top-down parsing..." []
    (tokens.map Token.shown) none)

theorem parse_of_tooDeep (wellFormed : WellFormed tokens) {fault : Fault}
    (tooDeep : checkNesting tokens maxNesting = .error fault) : parse tokens = .error fault := by
  simp [parse, wellFormed.checkStream, tooDeep, bind, Except.bind]

theorem parse_of_allowed (wellFormed : WellFormed tokens)
    (allowed : checkNesting tokens maxNesting = .ok ()) :
    parse tokens =
      match whole (opening tokens) with
      | .ok tree descent => .ok ⟨tree, descent.log.toList, .topDown⟩
      | .error fault _ => .error fault := by
  simp only [parse, wellFormed.checkStream, allowed, bind, Except.bind]
  rfl

theorem admitted_start {limit : Nat} (wellFormed : WellFormed tokens)
    (allowed : checkNesting tokens limit = .ok ()) :
    Admitted .expression limit Nesting.start tokens where
  terminated := wellFormed.terminated
  atOperand := Nesting.start_atOperand
  settled _ := rfl
  allowed := allowed

theorem ready_opening (wellFormed : WellFormed tokens)
    (allowed : checkNesting tokens maxNesting = .ok ()) :
    Ready .expression maxNesting depthLimit Nesting.start tokens where
  toAdmitted := admitted_start wellFormed allowed
  enough := by decide

theorem whole_sound (descent : Descent) {nesting : Nesting} {limit : Nat}
    (ready : Ready .expression limit depthLimit nesting descent.unread.tokens)
    (outside : nesting.outer = []) :
    Ends whole descent (fun tree _ => Means descent.unread.tokens tree)
      (Misreads nesting descent.unread.tokens) := by
  unfold whole
  refine .andThen (parser_sound .expression limit depthLimit descent nesting ready) ?_
  rintro tree after ⟨derivation, read, outcome, stops⟩
  have terminated := (read ▸ ready.terminated).behind
    fun _ member => Derivation.isLexeme_of_mem member
  obtain ⟨trailing, rest, next⟩ := List.exists_cons_of_ne_nil terminated.ne_nil
  refine .bind_ok (current_eq next) ?_
  rw [next] at terminated read stops
  cases isLast : trailing.isEnd with
  | true =>
      have last := Token.isEnd_iff.mp isLast
      obtain rfl := terminated.eq_nil_of_last last
      exact .of_ok rfl ⟨derivation, ⟨trailing, last, read⟩, outcome⟩
  | false =>
      have settled := Nesting.after_derivation derivation nesting ready.atOperand
      have misplaced : Nesting.Misplaced (nesting.after derivation.tokens) (trailing :: rest)
          trailing := by
        refine misplaced_of_stops settled.behindOperand (stops trailing rfl) ?_ ?_
        · exact fun _ => settled.outer_eq.trans outside
        · simp [isLast]
      have misreads : Misreads (nesting.after derivation.tokens) (trailing :: rest)
          (.syntactic (.trailingToken trailing.kind trailing.text) trailing.position) :=
        ⟨_, trailing, .inl misplaced, rfl, rfl, by simp⟩
      rw [read]
      exact .of_error rfl (.behind (Nesting.takes_derivation derivation _ ready.atOperand) misreads)

/-- What the top-down parser refuses where the nesting is allowed is out of place, or a numeral
beyond the finite doubles. -/
theorem parse_misreads (wellFormed : WellFormed tokens)
    (allowed : checkNesting tokens maxNesting = .ok ()) {fault : Fault}
    (refused : parse tokens = .error fault) : Misreads Nesting.start tokens fault := by
  have ends := whole_sound (opening tokens) (ready_opening wellFormed allowed) rfl
  rw [parse_of_allowed wellFormed allowed] at refused
  cases run : whole (opening tokens) with
  | ok tree after =>
      rw [run] at refused
      cases refused
  | error other after =>
      rw [run] at refused
      cases refused
      exact ends.error run

theorem whole_complete (descent : Descent) {nesting : Nesting} {limit : Nat}
    (ready : Ready .expression limit depthLimit nesting descent.unread.tokens)
    {derivation : Derivation .expression} (spans : derivation.Spans descent.unread.tokens) :
    match derivation.outcome with
    | .ok tree => ∃ after, whole descent = .ok tree after ∧
      after.built = descent.built ++ derivation.built [endMark] ∧
      after.noted = descent.noted + derivation.notes + 1
    | .error fault => ∃ after, whole descent = .error fault after := by
  obtain ⟨last, isLast, shape⟩ := spans
  have stops : Stops .expression last :=
    ⟨isOperatorOf_of_kind_ne _ (by simp [isLast]), isOperatorOf_of_kind_ne _ (by simp [isLast])⟩
  have run := closes_expression derivation limit depthLimit nesting descent last [] shape
    (shape ▸ ready) stops
  cases outcome : derivation.outcome with
  | error fault =>
      rw [outcome] at run
      obtain ⟨after, failed⟩ := run
      exact ⟨after, run_bind_error failed⟩
  | ok tree =>
      rw [outcome] at run
      obtain ⟨after, done, remaining, built, noted⟩ := run
      have isEnd := Token.isEnd_iff.mpr isLast
      refine ⟨{ after with log := after.log.record .accept "Parsing complete" ["E"] [] none },
        ?_, ?_, ?_⟩
      · change expression depthLimit descent = _ at done
        rw [whole, run_bind_ok done, run_bind_ok (current_eq remaining), isEnd, if_pos rfl]
        rfl
      · rw [List.map_singleton, Token.shown, if_pos isLast] at built
        rw [← built]
        exact StepLog.constructions_record_of_ne reading after.log (by decide) _ _ _ _
      · rw [← noted]
        exact after.log.size_record ..

/-- The log of an accepted stream is that of the descent along its derivation. -/
theorem exists_of_parse_ok {parsed : Parsed} (accepted : parse tokens = .ok parsed)
    {derivation : Derivation .expression} (spans : derivation.Spans tokens) :
    ∃ after : Descent, parsed.steps = after.log.toList ∧
      after.built = derivation.built [endMark] ∧ after.noted = derivation.notes + 2 := by
  have wellFormed := spans.wellFormed
  cases nested : checkNesting tokens maxNesting with
  | error fault =>
      rw [parse_of_tooDeep wellFormed nested] at accepted
      cases accepted
  | ok _ =>
      have run := whole_complete (opening tokens) (ready_opening wellFormed nested) spans
      rw [parse_of_allowed wellFormed nested] at accepted
      cases outcome : derivation.outcome with
      | error fault =>
          rw [outcome] at run
          obtain ⟨after, failed⟩ := run
          rw [failed] at accepted
          cases accepted
      | ok tree =>
          rw [outcome] at run
          obtain ⟨after, done, built, noted⟩ := run
          have opened : (opening tokens).noted = 1 := rfl
          rw [done] at accepted
          cases accepted
          exact ⟨after, rfl, built, by omega⟩

/-- The answer of the top-down parser follows the grammar. -/
theorem parse_followsGrammar (wellFormed : WellFormed tokens) :
    FollowsGrammar tokens (parse tokens) := by
  cases nested : checkNesting tokens maxNesting with
  | error fault =>
      rw [parse_of_tooDeep wellFormed nested]
      refine ⟨fun _ => by simp [nested, Except.map, bind, Except.bind], nofun, ?_⟩
      rintro _ ⟨⟩
      exact Nesting.refuses_of_check nested
  | ok _ =>
      have ready := ready_opening wellFormed nested
      constructor
      · intro derivation spans
        have run := whole_complete (opening tokens) ready spans
        rw [parse_of_allowed wellFormed nested, nested]
        change _ = derivation.outcome
        cases outcome : derivation.outcome with
        | error fault =>
            rw [outcome] at run
            obtain ⟨after, failed⟩ := run
            rw [failed]
            rfl
        | ok tree =>
            rw [outcome] at run
            obtain ⟨after, done, -⟩ := run
            rw [done]
            rfl
      · intro parsed accepted
        have ends := whole_sound (opening tokens) ready rfl
        rw [parse_of_allowed wellFormed nested] at accepted
        cases run : whole (opening tokens) with
        | error fault after =>
            rw [run] at accepted
            cases accepted
        | ok tree after =>
            rw [run] at accepted
            cases accepted
            exact ends.ok run
      · intro fault refused
        exact (parse_misreads wellFormed nested refused).refuses

end Reckon.Descent
