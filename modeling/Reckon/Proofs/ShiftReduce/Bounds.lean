import Reckon.Proofs.ShiftReduce.Audit

/-!
# How much the machine does

The turns of the machine by kind. A stream lets it shift every token but the end of input, and what
the shifted tokens weigh pays for the folds: three for each token, whatever its text is. So the cap
that a run is given by default, and every cap that leaves a turn for each of them and one more to
end with, is never reached.
-/

set_option autoImplicit false

namespace Reckon.ShiftReduce

variable {tokens : List Token} {machine next : ShiftReduce}

/-- The folds so far, and those that the stack may still need, are paid for by the shifted
tokens. -/
def IsPaid (machine : ShiftReduce) : Prop :=
  machine.reductions + load (machine.stack.map Frame.symbol) ≤ 3 * machine.shifts

theorem isPaid_opening (tokens : List Token) : IsPaid (opening tokens) :=
  Nat.le_refl 0

theorem Turned.isPaid (paid : IsPaid machine) (turned : Turned Rule.table machine next) :
    IsPaid next := by
  unfold IsPaid at paid ⊢
  cases turned with
  | @reduced token rest rule item unread goesOn found made =>
      have lighter := load_reduced_lt found item
      rw [reductions_reduced, shifts_reduced]
      omega
  | @shifted token rest unread goesOn noRule notLast =>
      have heavier := load_shifted_le machine token
      rw [reductions_shifted, shifts_shifted]
      omega

theorem Reaches.isPaid {turns : Nat} (paid : IsPaid machine)
    (reaches : Reaches Rule.table turns machine next) : IsPaid next := by
  induction reaches with
  | refl => exact paid
  | turn turned _ ih => exact ih (turned.isPaid paid)

/-- Behind a shift there is always the end of input. -/
theorem Audited.shifts_lt {rules : List Rule} (audited : Audited rules tokens machine)
    (stream : Token.checkStream tokens = .ok ()) : machine.shifts < tokens.length := by
  obtain ⟨seen, shape, notEnd, shifts⟩ := audited.unread
  obtain ⟨front, last, tokens_eq, -, -, isLast⟩ := Token.exists_of_checkStream stream
  have unread : machine.unread.tokens ≠ [] := by
    intro nothing
    have inSeen : last ∈ seen := by
      rw [nothing, List.append_nil] at shape
      rw [← shape, tokens_eq]
      simp
    simp [notEnd last inSeen] at isLast
  have some := List.length_pos_iff.mpr unread
  rw [shifts, shape, List.length_append]
  omega

/-- A fold that is about to happen is paid for as well, whether or not its action will fail. -/
theorem IsPaid.reductions_lt {token : Token} {rule : Rule} (paid : IsPaid machine)
    (found : machine.ruleAt? Rule.table token = some rule) :
    machine.reductions < 3 * machine.shifts := by
  have lighter := load_reduced_lt found (.token token)
  unfold IsPaid at paid
  omega

theorem shifts_accepted (machine : ShiftReduce) : machine.accepted.shifts = machine.shifts :=
  StepLog.countActions_record ..

theorem reductions_accepted (machine : ShiftReduce) :
    machine.accepted.reductions = machine.reductions :=
  StepLog.countActions_record ..

theorem exists_of_leaves {rules : List Rule} {cap : Nat}
    (ends : Leaves (run rules cap) machine next) :
    ∃ turns last, Reaches rules turns machine last ∧ next.shifts = last.shifts ∧
      next.reductions = last.reductions := by
  obtain ⟨turns, last, reaches, same | longer⟩ := exists_of_run_leaves ends
  · refine ⟨turns, last, reaches, ?_, ?_⟩
    · rw [shifts, same, ← shifts]
    · rw [reductions, same, ← reductions]
  · refine ⟨turns, last, reaches, ?_, ?_⟩
    · rw [← shifts_accepted last, shifts, longer, ← shifts]
    · rw [← reductions_accepted last, reductions, longer, ← reductions]

/-- A run on a stream shifts fewer tokens than the stream has, and folds its stack three times at
most for each token that could be shifted, a fold whose action fails among them. It ends before any
cap that leaves it so many turns and one more, and before the cap that it is given by default. This
holds of every stream with one end of input, whatever its other tokens are. -/
theorem machine_never_trips_its_cap (stream : Token.checkStream tokens = .ok ()) :
    (∀ cap after, Leaves (run Rule.table cap) (opening tokens) after →
        after.shifts ≤ tokens.length - 1 ∧ after.reductions ≤ 3 * (tokens.length - 1)) ∧
      (∀ turns machine token rule, Reaches Rule.table turns (opening tokens) machine →
        machine.ruleAt? Rule.table token = some rule →
        machine.reductions < 3 * (tokens.length - 1)) ∧
      (∀ cap position, 4 * (tokens.length : Int) - 3 ≤ cap →
        parse tokens (some cap) ≠ .error (.syntactic .capReached position)) ∧
      4 * (tokens.length : Int) - 3 ≤ defaultCap tokens.length ∧
      ∀ position, parse tokens none ≠ .error (.syntactic .capReached position) := by
  have bounded : ∀ {turns machine}, Reaches Rule.table turns (opening tokens) machine →
      IsPaid machine ∧ machine.shifts ≤ tokens.length - 1 := by
    intro turns machine reaches
    have audited := (Audited.opening Rule.table tokens).reaches reaches
    have below := audited.shifts_lt stream
    exact ⟨reaches.isPaid (isPaid_opening tokens), by omega⟩
  refine ⟨?_, ?_, ?_, ?_, ?_⟩
  · intro cap after ends
    obtain ⟨turns, last, reaches, shifts, reductions⟩ := exists_of_leaves ends
    obtain ⟨paid, below⟩ := bounded reaches
    unfold IsPaid at paid
    rw [shifts, reductions]
    omega
  · intro turns machine token rule reaches found
    obtain ⟨paid, below⟩ := bounded reaches
    have folds := paid.reductions_lt found
    omega
  · intro cap position enough
    have room : Suffices tokens.length (some cap) := enough
    exact parse_sparesCap room position
  · unfold defaultCap
    omega
  · exact parse_sparesCap (suffices_none tokens.length)

/-- A stream made by hand, with texts that are grammar symbols. -/
def symbolTexts : List Token :=
  [⟨.operator, "E", 0⟩, ⟨.number, "u+", 1⟩, ⟨.leftParenthesis, "T", 2⟩, ⟨.endOfInput, "F", 3⟩]

theorem symbolTexts_never_trip_the_cap :
    (∀ cap after, Leaves (run Rule.table cap) (opening symbolTexts) after →
        after.shifts ≤ 3 ∧ after.reductions ≤ 9) ∧
      (∀ position, parse symbolTexts (some 13) ≠ .error (.syntactic .capReached position)) ∧
      ∀ position, parse symbolTexts none ≠ .error (.syntactic .capReached position) := by
  have stream : Token.checkStream symbolTexts = .ok () := by decide
  obtain ⟨counts, -, capped, -, uncapped⟩ := machine_never_trips_its_cap stream
  exact ⟨counts, fun position => capped 13 position (by decide), uncapped⟩

end Reckon.ShiftReduce
