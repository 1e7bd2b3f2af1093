import Reckon.Proofs.Runs

/-!
# Runs side by side

Two computations that go the same way: both return, or both fail. What related values, faults and
states are is left to the use. Pairs are put together along the steps of the computations, so a pair
of programs of the same shape is as good as the pairs of their parts.
-/

set_option autoImplicit false

namespace Reckon

section Outcomes

variable {ε ε' α α' β β' : Type}

/-- Two outcomes are related values or related faults. -/
inductive PairedOutcomes (values : α → α' → Prop) (faults : ε → ε' → Prop) :
    Except ε α → Except ε' α' → Prop where
  | ok {value : α} {value' : α'} :
      values value value' → PairedOutcomes values faults (.ok value) (.ok value')
  | error {fault : ε} {fault' : ε'} :
      faults fault fault' → PairedOutcomes values faults (.error fault) (.error fault')

variable {values : α → α' → Prop} {results : β → β' → Prop} {faults : ε → ε' → Prop}

theorem PairedOutcomes.bind {outcome : Except ε α} {outcome' : Except ε' α'}
    {next : α → Except ε β} {next' : α' → Except ε' β'}
    (first : PairedOutcomes values faults outcome outcome')
    (rest : ∀ value value', values value value' →
      PairedOutcomes results faults (next value) (next' value')) :
    PairedOutcomes results faults (outcome >>= next) (outcome' >>= next') := by
  cases first with
  | ok related => exact rest _ _ related
  | error related => exact .error related

theorem PairedOutcomes.exists_ok {value : α} {outcome' : Except ε' α'}
    (paired : PairedOutcomes values faults (.ok value) outcome') :
    ∃ value', outcome' = .ok value' ∧ values value value' := by
  cases paired with
  | ok related => exact ⟨_, rfl, related⟩

theorem PairedOutcomes.exists_error {fault : ε} {outcome' : Except ε' α'}
    (paired : PairedOutcomes values faults (.error fault) outcome') :
    ∃ fault', outcome' = .error fault' ∧ faults fault fault' := by
  cases paired with
  | error related => exact ⟨_, rfl, related⟩

end Outcomes

section Runs

variable {σ τ α α' β β' : Type}

/-- Two ends of runs are related values or related faults, in related states. -/
inductive PairedResults (states : σ → τ → Prop) (values : α → α' → Prop)
    (faults : Fault → Fault → Prop) :
    EStateM.Result Fault σ α → EStateM.Result Fault τ α' → Prop where
  | ok {value : α} {value' : α'} {after : σ} {after' : τ} :
      values value value' → states after after' →
      PairedResults states values faults (.ok value after) (.ok value' after')
  | error {fault fault' : Fault} {after : σ} {after' : τ} :
      faults fault fault' → states after after' →
      PairedResults states values faults (.error fault after) (.error fault' after')

theorem PairedResults.stateOf {states : σ → τ → Prop} {values : α → α' → Prop}
    {faults : Fault → Fault → Prop} {result : EStateM.Result Fault σ α}
    {result' : EStateM.Result Fault τ α'}
    (paired : PairedResults states values faults result result') :
    states (stateOf result) (stateOf result') := by
  cases paired with
  | ok _ related => exact related
  | error _ related => exact related

/-- From related states two runs come to related ends. -/
def PairedRuns (states : σ → τ → Prop) (values : α → α' → Prop) (faults : Fault → Fault → Prop)
    (run : EStateM Fault σ α) (run' : EStateM Fault τ α') : Prop :=
  ∀ before before', states before before' →
    PairedResults states values faults (run before) (run' before')

namespace PairedRuns

variable {states : σ → τ → Prop} {values : α → α' → Prop} {results : β → β' → Prop}
  {faults : Fault → Fault → Prop}

theorem bind {run : EStateM Fault σ α} {run' : EStateM Fault τ α'} {next : α → EStateM Fault σ β}
    {next' : α' → EStateM Fault τ β'} (first : PairedRuns states values faults run run')
    (rest : ∀ value value', values value value' →
      PairedRuns states results faults (next value) (next' value')) :
    PairedRuns states results faults (run >>= next) (run' >>= next') := by
  intro before before' related
  have firstEnds := first before before' related
  change PairedResults states results faults (EStateM.bind run next before)
    (EStateM.bind run' next' before')
  unfold EStateM.bind
  generalize run before = result at firstEnds
  generalize run' before' = result' at firstEnds
  cases firstEnds with
  | ok valuesRelated statesRelated => exact rest _ _ valuesRelated _ _ statesRelated
  | error faultsRelated statesRelated => exact .error faultsRelated statesRelated

/-- The common case of a first part that returns the same value on both sides. -/
theorem bind_same {run : EStateM Fault σ α} {run' : EStateM Fault τ α}
    {next : α → EStateM Fault σ β} {next' : α → EStateM Fault τ β'}
    (first : PairedRuns states Eq faults run run')
    (rest : ∀ value, PairedRuns states results faults (next value) (next' value)) :
    PairedRuns states results faults (run >>= next) (run' >>= next') :=
  first.bind fun value _ same => same ▸ rest value

theorem of_pure {value : α} {value' : α'} (related : values value value') :
    PairedRuns states values faults (pure value) (pure value') :=
  fun _ _ statesRelated => .ok related statesRelated

theorem of_throw {fault fault' : Fault} (related : faults fault fault') :
    PairedRuns states values faults (throw fault) (throw fault') :=
  fun _ _ statesRelated => .error related statesRelated

theorem of_get : PairedRuns states states faults get get :=
  fun _ _ statesRelated => .ok statesRelated statesRelated

theorem of_modify {change : σ → σ} {change' : τ → τ}
    (kept : ∀ before before', states before before' → states (change before) (change' before')) :
    PairedRuns states Eq faults (modify change) (modify change') :=
  fun _ _ statesRelated => .ok rfl (kept _ _ statesRelated)

end PairedRuns

end Runs

end Reckon
