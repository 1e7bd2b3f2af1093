import Reckon.Proofs.ShiftReduce.Completeness
import Reckon.Proofs.ShiftReduce.Termination

/-!
# The language of the machine

The answers of the bottom-up parser follow the grammar when the cap lets the machine finish. What a
run answers before its cap follows the grammar with any cap.
-/

set_option autoImplicit false

namespace Reckon.ShiftReduce

open Grammar (Nesting checkNesting maxNesting)

variable {tokens : List Token} {cap? : Option Int}

/-- The state in which a stream is parsed. -/
def opening (tokens : List Token) : ShiftReduce :=
  start tokens (StepLog.empty.record .process "Starting bottom-up parsing..." []
    (tokens.map Token.shown) none)

/-- The turns that a run may take. -/
def allowance (tokens : List Token) (cap? : Option Int) : Nat :=
  (cap?.getD (defaultCap tokens.length)).toNat

theorem parse_of_tooDeep (wellFormed : WellFormed tokens) {fault : Fault}
    (tooDeep : checkNesting tokens maxNesting = .error fault) :
    parse tokens cap? = .error fault := by
  simp [parse, parseWith, wellFormed.checkStream, tooDeep, bind, Except.bind]

theorem parse_of_allowed (wellFormed : WellFormed tokens)
    (allowed : checkNesting tokens maxNesting = .ok ()) :
    parse tokens cap? =
      match run Rule.table (allowance tokens cap?) (opening tokens) with
      | .ok tree machine => .ok ⟨tree, machine.log.toList, .bottomUp⟩
      | .error fault _ => .error fault := by
  simp only [parse, parseWith, wellFormed.checkStream, allowed, bind, Except.bind]
  rfl

theorem sound_opening (wellFormed : WellFormed tokens) : Sound tokens (opening tokens) [] :=
  Sound.start wellFormed.terminated _

theorem turns_lt_allowance {turns : Nat} {last : ShiftReduce}
    (enough : Suffices tokens.length cap?)
    (reaches : Reaches Rule.table turns (opening tokens) last) (unread : last.unread.tokens ≠ []) :
    turns < allowance tokens cap? := by
  have spent := reaches.add_potential_le
  have room := enough.lt
  have some := List.length_pos_iff.mpr unread
  simp only [opening, potential_start] at spent
  simp only [potential] at spent
  unfold allowance
  omega

theorem comes_start {derivation : Derivation .expression} (spans : derivation.Spans tokens)
    (log : StepLog) :
    ∃ last : Token, last.kind = .endOfInput ∧
      Comes (start tokens log) derivation.turns "E" derivation.outcome [last]
        (derivation.postorder [endMark]) := by
  obtain ⟨last, isLast, shape⟩ := spans
  have permitted : Grammar.canReduce Nonterminal.expression.symbol last.symbol = true := by
    rw [Token.symbol_of_kind_endOfInput isLast]
    decide
  have comes := follows derivation (start tokens log) last [] shape nofun permitted
  rw [List.map_singleton, Token.shown, if_pos isLast] at comes
  exact ⟨last, isLast, comes⟩

theorem comes_opening {derivation : Derivation .expression} (spans : derivation.Spans tokens) :
    ∃ last : Token, last.kind = .endOfInput ∧
      Comes (opening tokens) derivation.turns "E" derivation.outcome [last]
        (derivation.postorder [endMark]) :=
  comes_start spans _

theorem run_complete (wellFormed : WellFormed tokens) (enough : Suffices tokens.length cap?)
    {derivation : Derivation .expression} (spans : derivation.Spans tokens) :
    match derivation.outcome with
    | .ok tree => ∃ after, run Rule.table (allowance tokens cap?) (opening tokens) = .ok tree after
    | .error fault =>
      ∃ after, run Rule.table (allowance tokens cap?) (opening tokens) = .error fault after := by
  obtain ⟨last, isLast, comes⟩ := comes_opening spans
  cases outcome : derivation.outcome with
  | ok tree =>
      rw [outcome] at comes
      obtain ⟨after, reaches, single, unread, -⟩ := comes
      have below := turns_lt_allowance enough reaches (by simp [unread])
      have accepts : turn Rule.table after = .ok (some tree) after.accepted :=
        turn_of_accepting unread single (Token.isEnd_iff.mpr isLast)
      exact ⟨_, run_of_accepts reaches below accepts⟩
  | error fault =>
      rw [outcome] at comes
      obtain ⟨turns, stopped, after, reaches, fails⟩ := comes
      obtain ⟨_, sound⟩ := Sound.reaches ⟨[], sound_opening wellFormed⟩ reaches
      have below := turns_lt_allowance enough reaches sound.terminated.ne_nil
      exact ⟨after, run_of_fails reaches below fails⟩

/-- Whatever the cap is, a tree is only returned for a stream that it is the meaning of. -/
theorem parse_reads (wellFormed : WellFormed tokens) {parsed : Parsed}
    (accepted : parse tokens cap? = .ok parsed) : Means tokens parsed.tree := by
  cases nested : checkNesting tokens maxNesting with
  | error fault =>
      rw [parse_of_tooDeep wellFormed nested] at accepted
      cases accepted
  | ok _ =>
      have ends := (sound_opening wellFormed).run_ends (allowance tokens cap?)
      rw [parse_of_allowed wellFormed nested] at accepted
      cases run : run Rule.table (allowance tokens cap?) (opening tokens) with
      | error fault after =>
          rw [run] at accepted
          cases accepted
      | ok tree after =>
          rw [run] at accepted
          cases accepted
          exact ends.ok run

/-- Whatever the cap is, a stream is refused for a cause that is about the source, unless the cap is
reached. -/
theorem parse_refuses (wellFormed : WellFormed tokens) {fault : Fault}
    (refused : parse tokens cap? = .error fault) :
    Refuses tokens fault ∨
      ∃ token ∈ tokens, fault = .syntactic .capReached token.position := by
  cases nested : checkNesting tokens maxNesting with
  | error other =>
      rw [parse_of_tooDeep wellFormed nested] at refused
      cases refused
      exact .inl (Nesting.refuses_of_check nested)
  | ok _ =>
      have ends := (sound_opening wellFormed).run_ends (allowance tokens cap?)
      rw [parse_of_allowed wellFormed nested] at refused
      cases run : run Rule.table (allowance tokens cap?) (opening tokens) with
      | ok tree after =>
          rw [run] at refused
          cases refused
      | error other after =>
          rw [run] at refused
          cases refused
          exact ends.error run

theorem sparesCap_checkStream (tokens : List Token) : SparesCap (Token.checkStream tokens) := by
  intro position failed
  unfold Token.checkStream at failed
  split at failed
  · cases failed
  · split_ifs at failed <;> cases failed

theorem sparesCap_check (limit : Int) (nesting : Nesting) (tokens : List Token) :
    SparesCap (nesting.check limit tokens) := by
  induction tokens generalizing nesting with
  | nil => exact .pure ()
  | cons token rest ih =>
      intro position failed
      rw [Nesting.check] at failed
      split at failed
      · cases failed
      · exact ih _ position failed

theorem parse_sparesCap (enough : Suffices tokens.length cap?) : SparesCap (parse tokens cap?) := by
  refine (sparesCap_checkStream tokens).bind fun _ => ?_
  refine (sparesCap_check _ _ tokens).bind fun _ => ?_
  change SparesCap (match run Rule.table (allowance tokens cap?) (opening tokens) with
    | .ok tree machine => .ok ⟨tree, machine.log.toList, .bottomUp⟩
    | .error fault _ => .error fault : Except Fault Parsed)
  cases outcome : run Rule.table (allowance tokens cap?) (opening tokens) with
  | ok tree machine => exact .pure _
  | error fault after =>
      rintro position ⟨⟩
      exact run_ne_capReached enough outcome

/-- With a sufficient cap the answer of the bottom-up parser follows the grammar. -/
theorem parse_followsGrammar (wellFormed : WellFormed tokens)
    (enough : Suffices tokens.length cap?) : FollowsGrammar tokens (parse tokens cap?) where
  follows := by
    intro derivation spans
    cases nested : checkNesting tokens maxNesting with
    | error fault =>
        rw [parse_of_tooDeep wellFormed nested]
        rfl
    | ok _ =>
        have complete := run_complete wellFormed enough spans
        rw [parse_of_allowed wellFormed nested]
        change _ = derivation.outcome
        cases outcome : derivation.outcome with
        | error fault =>
            rw [outcome] at complete
            obtain ⟨after, failed⟩ := complete
            rw [failed]
            rfl
        | ok tree =>
            rw [outcome] at complete
            obtain ⟨after, done⟩ := complete
            rw [done]
            rfl
  reads := parse_reads wellFormed
  refuses := by
    intro fault refused
    rcases parse_refuses wellFormed refused with refuses | ⟨token, -, rfl⟩
    · exact refuses
    · exact absurd refused (parse_sparesCap enough token.position)

end Reckon.ShiftReduce
