import Reckon.Proofs.Lexing
import Reckon.Proofs.Parsing
import Reckon.Proofs.ShiftReduce.Audit

/-!
# What the step logs say was built

The logs of the two parsers have little in common, but they tell of the same constructions: each
parser completes the productions of a derivation in post-order, and each production at the same
place of the input. The descent passes over the productions that only hand on an operand.
-/

set_option autoImplicit false

namespace Reckon

variable {tokens : List Token} {derivation : Derivation .expression} {parsed : Parsed}

theorem Descent.constructions_eq (accepted : Descent.parse tokens = .ok parsed)
    (spans : derivation.Spans tokens) :
    constructions Descent.reading parsed.steps = derivation.built [endMark] := by
  obtain ⟨after, steps, built, -⟩ := exists_of_parse_ok accepted spans
  rw [steps]
  exact built

namespace ShiftReduce

theorem built_accepted (machine : ShiftReduce) : machine.accepted.built = machine.built :=
  StepLog.constructions_record_of_ne Step.rule machine.log (by decide) _ _ _ _

/-- A machine that accepts a stream has gone the way along its derivation, whatever its cap. -/
theorem exists_folded {cap? : Option Int} (accepted : parse tokens cap? = .ok parsed)
    (spans : derivation.Spans tokens) :
    ∃ folded tree, Reaches Rule.table derivation.turns (opening tokens) folded ∧
      turn Rule.table folded = .ok (some tree) folded.accepted ∧
      folded.built = derivation.postorder [endMark] ∧
      parsed.steps = folded.accepted.log.toList := by
  obtain ⟨-, -, after, done, steps⟩ := exists_of_parseWith_ok accepted
  obtain ⟨turns, last, -, reaches, accepts⟩ := exists_of_run_ok done
  -- The machine is determined, so the way that a cap let it finish is the way along the derivation.
  obtain ⟨endOfInput, isLast, comes⟩ := comes_opening spans
  cases outcome : derivation.outcome with
  | error fault =>
      rw [outcome] at comes
      obtain ⟨fewer, stuck, failed, reachesStuck, fails⟩ := comes
      exact absurd fails (not_fails_of_accepts reaches accepts reachesStuck)
  | ok tree =>
      rw [outcome] at comes
      obtain ⟨folded, reachesFolded, single, unread, built⟩ := comes
      have folds : turn Rule.table folded = .ok (some tree) folded.accepted :=
        turn_of_accepting unread single (Token.isEnd_iff.mpr isLast)
      obtain rfl := eq_of_accepts reaches accepts reachesFolded folds
      exact ⟨folded, tree, reachesFolded, folds, built, steps⟩

theorem constructions_eq {cap? : Option Int} (accepted : parse tokens cap? = .ok parsed)
    (spans : derivation.Spans tokens) :
    constructions Step.rule parsed.steps = derivation.postorder [endMark] := by
  obtain ⟨folded, -, -, -, built, steps⟩ := exists_folded accepted spans
  rw [steps]
  exact (built_accepted folded).trans built

end ShiftReduce

/-- The logs of two parsers that accept a stream record the same construction: what the descent
built is what the machine folded, unit rules apart, with the same texts left to read each time, and
both are the post-order of the derivation of the stream. -/
theorem logs_record_one_construction {topDown bottomUp : Parsed} {cap? : Option Int}
    (wellFormed : WellFormed tokens) (descended : Descent.parse tokens = .ok topDown)
    (folded : ShiftReduce.parse tokens cap? = .ok bottomUp) :
    constructions Descent.reading topDown.steps =
        (constructions Step.rule bottomUp.steps).filter (fun construction => !construction.isUnit) ∧
      Generated tokens ∧
        ∀ derivation : Derivation .expression, derivation.Spans tokens →
          constructions Descent.reading topDown.steps = derivation.built [endMark] ∧
            constructions Step.rule bottomUp.steps = derivation.postorder [endMark] := by
  have each : ∀ derivation : Derivation .expression, derivation.Spans tokens →
      constructions Descent.reading topDown.steps = derivation.built [endMark] ∧
        constructions Step.rule bottomUp.steps = derivation.postorder [endMark] :=
    fun derivation spans =>
      ⟨Descent.constructions_eq descended spans, ShiftReduce.constructions_eq folded spans⟩
  have generated := ((Descent.parse_followsGrammar wellFormed).reads descended).generated
  refine ⟨?_, generated, each⟩
  obtain ⟨derivation, spans⟩ := generated
  obtain ⟨built, postorder⟩ := each derivation spans
  rw [built, postorder, Derivation.built]

theorem signedProduct_is_built_once :
    ∃ topDown bottomUp, Descent.parse ShiftReduce.signedProduct = .ok topDown ∧
      ShiftReduce.parse ShiftReduce.signedProduct none = .ok bottomUp ∧
        constructions Descent.reading topDown.steps =
          (constructions Step.rule bottomUp.steps).filter
            (fun construction => !construction.isUnit) := by
  have lexed : Token.tokenize "-(1+2)*3" = .ok ShiftReduce.signedProduct := by decide +kernel
  have descends : (Descent.parse ShiftReduce.signedProduct).isOk = true := by decide +kernel
  have folds : (ShiftReduce.parse ShiftReduce.signedProduct none).isOk = true := by decide +kernel
  obtain ⟨topDown, descended⟩ := exists_of_isOk descends
  obtain ⟨bottomUp, folded⟩ := exists_of_isOk folds
  have wellFormed := Token.tokenize_wellFormed lexed
  exact ⟨topDown, bottomUp, descended, folded,
    (logs_record_one_construction wellFormed descended folded).1⟩

example :
    (Descent.parse ShiftReduce.signedProduct).map (fun parsed =>
      (constructions Descent.reading parsed.steps).map fun construction => construction.rule) =
      .ok [some "F → NUMBER", some "F → NUMBER", some "E → E + T", some "F → ( E )",
        some "F → u- F", some "F → NUMBER", some "T → T * F"] := by
  decide +kernel

end Reckon
