import Mathlib.Data.List.Forall2
import Reckon.Fault

/-!
# Outcomes of runs

How the outcome of a computation in several parts comes about from the outcomes of its parts, for
computations that return or fail and for those that carry a state. `Ends` is a contract of a run
from one state: what holds of its value and the state it leaves, and what holds of its fault.
-/

set_option autoImplicit false

namespace Reckon

section Except

variable {ε α β : Type} {computation : Except ε α} {next : α → Except ε β}

theorem exists_of_isOk (returns : computation.isOk = true) : ∃ value, computation = .ok value := by
  cases computation with
  | error fault => cases returns
  | ok value => exact ⟨value, rfl⟩

theorem except_bind_ok {result : β} (accepted : computation >>= next = .ok result) :
    ∃ value, computation = .ok value ∧ next value = .ok result := by
  cases computation with
  | error fault => cases accepted
  | ok value => exact ⟨value, rfl, accepted⟩

theorem except_bind_error {fault : ε} (refused : computation >>= next = .error fault) :
    computation = .error fault ∨ ∃ value, computation = .ok value ∧ next value = .error fault := by
  cases computation with
  | error other =>
      cases refused
      exact .inl rfl
  | ok value => exact .inr ⟨value, rfl, refused⟩

theorem except_map_ok {change : α → β} {result : β}
    (accepted : computation.map change = .ok result) :
    ∃ value, computation = .ok value ∧ change value = result := by
  cases computation with
  | error fault => cases accepted
  | ok value => exact ⟨value, rfl, Except.ok.inj accepted⟩

theorem mapError_eq_error_iff {δ : Type} {change : ε → δ} {fault : δ} :
    computation.mapError change = .error fault ↔
      ∃ cause, computation = .error cause ∧ fault = change cause := by
  cases computation <;> simp [Except.mapError, eq_comm]

/-- What a computation on each element of a list returns is what it returns for the elements, in
order. -/
theorem forall₂_of_mapM {run : α → Except ε β} {elements : List α} {results : List β}
    (done : elements.mapM run = .ok results) :
    List.Forall₂ (fun element result => run element = .ok result) elements results := by
  induction elements generalizing results with
  | nil =>
      cases done
      exact .nil
  | cons element rest ih =>
      rw [List.mapM_cons] at done
      obtain ⟨first, firstDone, done⟩ := except_bind_ok done
      obtain ⟨others, restDone, done⟩ := except_bind_ok done
      cases done
      exact .cons firstDone (ih restDone)

theorem exists_of_mem_forall₂ {related : α → β → Prop} {lefts : List α} {rights : List β}
    (matched : List.Forall₂ related lefts rights) {left : α} (member : left ∈ lefts) :
    ∃ right ∈ rights, related left right := by
  induction matched with
  | nil => cases member
  | @cons first other _ _ firstRelated _ ih =>
      rcases List.mem_cons.mp member with rfl | inRest
      · exact ⟨other, by simp, firstRelated⟩
      · obtain ⟨right, inRights, isRelated⟩ := ih inRest
        exact ⟨right, by simp [inRights], isRelated⟩

theorem exists_of_mem_mapM {run : α → Except ε β} {elements : List α} {results : List β}
    (done : elements.mapM run = .ok results) {result : β} (member : result ∈ results) :
    ∃ element ∈ elements, run element = .ok result :=
  exists_of_mem_forall₂ (forall₂_of_mapM done).flip member

theorem exists_of_mapM_error {run : α → Except ε β} {elements : List α} {fault : ε}
    (failed : elements.mapM run = .error fault) :
    ∃ element ∈ elements, run element = .error fault := by
  induction elements with
  | nil => cases failed
  | cons element rest ih =>
      rw [List.mapM_cons] at failed
      rcases except_bind_error failed with refused | ⟨_, -, failed⟩
      · exact ⟨element, by simp, refused⟩
      rcases except_bind_error failed with failed | ⟨_, -, failed⟩
      · obtain ⟨other, inRest, refused⟩ := ih failed
        exact ⟨other, by simp [inRest], refused⟩
      · cases failed

end Except

section State

variable {σ α β : Type} {run : EStateM Fault σ α} {next : α → EStateM Fault σ β} {before after : σ}

theorem run_bind_ok {value : α} (done : run before = .ok value after) :
    (run >>= next) before = next value after := by
  change EStateM.bind run next before = _
  simp [EStateM.bind, done]

theorem run_get (before : σ) : (get : EStateM Fault σ σ) before = .ok before before := rfl

theorem run_bind_error {fault : Fault} (refused : run before = .error fault after) :
    (run >>= next) before = .error fault after := by
  change EStateM.bind run next before = _
  simp [EStateM.bind, refused]

/-- A run comes to its end in a state, with a value or with a fault. -/
def Leaves (run : EStateM Fault σ α) (before after : σ) : Prop :=
  (∃ value, run before = .ok value after) ∨ ∃ fault, run before = .error fault after

/-- From a state, a run ends with a value and a state of one kind or with a fault of another. -/
def Ends (run : EStateM Fault σ α) (before : σ) (onValue : α → σ → Prop) (onFault : Fault → Prop) :
    Prop :=
  match run before with
  | .ok value after => onValue value after
  | .error fault _ => onFault fault

variable {onValue : α → σ → Prop} {onResult : β → σ → Prop} {onFault : Fault → Prop}

theorem Ends.of_ok {value : α} (done : run before = .ok value after) (holds : onValue value after) :
    Ends run before onValue onFault := by
  simpa [Ends, done] using holds

theorem Ends.of_error {fault : Fault} (refused : run before = .error fault after)
    (holds : onFault fault) : Ends run before onValue onFault := by
  simpa [Ends, refused] using holds

theorem Ends.ok {value : α} (ends : Ends run before onValue onFault)
    (done : run before = .ok value after) : onValue value after := by
  simpa [Ends, done] using ends

theorem Ends.error {fault : Fault} (ends : Ends run before onValue onFault)
    (refused : run before = .error fault after) : onFault fault := by
  simpa [Ends, refused] using ends

/-- A run that goes on like another one from elsewhere ends like it. -/
theorem Ends.of_eq {other : EStateM Fault σ α} {elsewhere : σ} (same : run before = other elsewhere)
    (ends : Ends other elsewhere onValue onFault) : Ends run before onValue onFault := by
  unfold Ends at ends ⊢
  rwa [same]

theorem Ends.bind
    (first : Ends run before
      (fun value middle => Ends (next value) middle onResult onFault) onFault) :
    Ends (run >>= next) before onResult onFault := by
  cases outcome : run before with
  | ok value middle =>
      have second := first.ok outcome
      unfold Ends at second ⊢
      rwa [run_bind_ok outcome]
  | error fault middle => exact .of_error (run_bind_error outcome) (first.error outcome)

theorem Ends.bind_ok {value : α} (done : run before = .ok value after)
    (rest : Ends (next value) after onResult onFault) :
    Ends (run >>= next) before onResult onFault :=
  .bind (.of_ok done rest)

theorem Ends.mono {weaker : α → σ → Prop} {weakerFault : Fault → Prop}
    (ends : Ends run before onValue onFault)
    (values : ∀ value after, onValue value after → weaker value after)
    (faults : ∀ fault, onFault fault → weakerFault fault) : Ends run before weaker weakerFault := by
  cases outcome : run before with
  | ok value middle => exact .of_ok outcome (values _ _ (ends.ok outcome))
  | error fault middle => exact .of_error outcome (faults _ (ends.error outcome))

/-- What goes on behind a run may rely on the contract of the run. -/
theorem Ends.andThen (first : Ends run before onValue onFault)
    (second : ∀ value middle, onValue value middle → Ends (next value) middle onResult onFault) :
    Ends (run >>= next) before onResult onFault :=
  .bind (first.mono second fun _ holds => holds)

/-- The state in which a run ends, whether it returns or fails. -/
def stateOf : EStateM.Result Fault σ α → σ
  | .ok _ after => after
  | .error _ after => after

/-- From a state, a run returns a value with a state that is right for it, or fails in a state of
another kind. -/
def Arrives (run : EStateM Fault σ α) (before : σ) (onValue : α → σ → Prop) (onFault : σ → Prop) :
    Prop :=
  match run before with
  | .ok value after => onValue value after
  | .error _ after => onFault after

section Arrives

variable {returned : α → σ → Prop} {returnedNext : β → σ → Prop} {failed : σ → Prop}

theorem Arrives.of_ok {value : α} (done : run before = .ok value after)
    (holds : returned value after) : Arrives run before returned failed := by
  rwa [Arrives, done]

theorem Arrives.of_error {fault : Fault} (refused : run before = .error fault after)
    (holds : failed after) : Arrives run before returned failed := by
  rwa [Arrives, refused]

theorem Arrives.stateOf {kept : σ → Prop} (arrives : Arrives run before returned kept)
    (keeps : ∀ value after, returned value after → kept after) :
    kept (Reckon.stateOf (run before)) := by
  unfold Arrives at arrives
  cases outcome : run before with
  | ok value after =>
      rw [outcome] at arrives
      exact keeps value after arrives
  | error fault after =>
      rw [outcome] at arrives
      exact arrives

theorem Arrives.bind (first : Arrives run before returned failed)
    (rest : ∀ value middle, returned value middle →
      Arrives (next value) middle returnedNext failed) :
    Arrives (run >>= next) before returnedNext failed := by
  unfold Arrives at first
  cases outcome : run before with
  | ok value middle =>
      rw [outcome] at first
      have second := rest value middle first
      unfold Arrives at second ⊢
      rwa [run_bind_ok outcome]
  | error fault middle =>
      rw [outcome] at first
      exact .of_error (run_bind_error outcome) first

theorem Arrives.bind_ok {value : α} (done : run before = .ok value after)
    (rest : Arrives (next value) after returnedNext failed) :
    Arrives (run >>= next) before returnedNext failed := by
  unfold Arrives at rest ⊢
  rwa [run_bind_ok done]

end Arrives

end State

end Reckon
