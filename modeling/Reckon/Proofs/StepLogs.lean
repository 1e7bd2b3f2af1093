import Mathlib.Data.List.Chain
import Reckon.StepLog

/-!
# Reading step logs

Views of the steps of a log: how many of them are of one action, their indices, and what they built.
A log that is only ever recorded into has the indices zero, one, two and so on.
-/

set_option autoImplicit false

namespace Reckon

/-- The steps have the indices zero, one, two and so on. -/
def Numbered (steps : List Step) : Prop :=
  steps.map Step.index = (List.range steps.length).map Int.ofNat

/-- What was built: by which rule, and with which texts left to read. -/
structure Construction where
  rule : Option Text
  remaining : List Text
deriving DecidableEq

/-- Whether a factor was only passed on as a term, or a term as an expression. -/
def Construction.isUnit (construction : Construction) : Bool :=
  construction.rule == some ("T → F" : Text) || construction.rule == some ("E → T" : Text)

/-- What the steps of a log built, in order, when their rules are read in a certain way. -/
def constructions (reading : Step → Option Text) (steps : List Step) : List Construction :=
  (steps.filter fun step => step.action == .reduce).map fun step => ⟨reading step, step.remaining⟩

namespace StepLog

variable {log : StepLog}

theorem countActions_record (log : StepLog) (action : StepAction) (description : Text)
    (stack remaining : List Text) (rule : Option Text) (counted : StepAction) :
    countActions (log.record action description stack remaining rule).toList counted =
      countActions log.toList counted + if action = counted then 1 else 0 := by
  rw [toList_record, countActions, List.countP_append, List.countP_singleton]
  simp [countActions, next]

theorem size_record (log : StepLog) (action : StepAction) (description : Text)
    (stack remaining : List Text) (rule : Option Text) :
    (log.record action description stack remaining rule).size = log.size + 1 := by
  simp [size, record]

theorem numbered_empty : Numbered empty.toList := rfl

theorem numbered_record (numbered : Numbered log.toList) (action : StepAction) (description : Text)
    (stack remaining : List Text) (rule : Option Text) :
    Numbered (log.record action description stack remaining rule).toList := by
  have place : (log.next action description stack remaining rule).index = log.toList.length := by
    rw [length_toList]
    rfl
  unfold Numbered at numbered ⊢
  rw [toList_record, List.map_append, numbered, List.length_append, List.length_singleton,
    List.range_succ, List.map_append, List.map_singleton, List.map_singleton, place]
  rfl

theorem constructions_record_reduce (reading : Step → Option Text) (log : StepLog)
    (description : Text) (stack remaining : List Text) (rule : Option Text) :
    constructions reading (log.record .reduce description stack remaining rule).toList =
      constructions reading log.toList ++
        [⟨reading (log.next .reduce description stack remaining rule), remaining⟩] := by
  rw [toList_record, constructions, List.filter_append, List.map_append, constructions]
  rfl

theorem constructions_record_of_ne (reading : Step → Option Text) (log : StepLog)
    {action : StepAction} (other : action ≠ .reduce) (description : Text)
    (stack remaining : List Text) (rule : Option Text) :
    constructions reading (log.record action description stack remaining rule).toList =
      constructions reading log.toList := by
  have skipped : ((log.next action description stack remaining rule).action == .reduce) = false :=
    beq_eq_false_iff_ne.mpr other
  rw [toList_record, constructions, List.filter_append, List.filter_singleton, skipped,
    constructions]
  simp

end StepLog

/-- In a chain every element behind the first one stands in the relation to another. -/
theorem exists_of_isChain_cons {α : Type} {relation : α → α → Prop} {first : α} {rest : List α}
    (chain : List.IsChain relation (first :: rest)) {element : α} (member : element ∈ rest) :
    ∃ previous, relation previous element := by
  induction rest generalizing first with
  | nil => cases member
  | cons second rest ih =>
      obtain ⟨related, chain⟩ := List.isChain_cons_cons.mp chain
      rcases List.mem_cons.mp member with rfl | inRest
      · exact ⟨first, related⟩
      · exact ih chain inRest

end Reckon
