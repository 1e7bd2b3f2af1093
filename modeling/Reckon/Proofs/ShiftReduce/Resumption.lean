import Reckon.Proofs.ShiftReduce.Termination

/-!
# Runs that go on where they stopped

A run that comes to its cap leaves the machine as its turns have made it and notes nothing about the
cap. So the machine can be run again, and ends as it would have with both caps in one run. A run
that ends before its cap ends so with every higher one. This holds for any rule table: one whose
rules match without end, one that folds nothing at all, and one whose actions fail.
-/

set_option autoImplicit false

namespace Reckon.ShiftReduce

variable {rules : List Rule} {first last : ShiftReduce} {token : Token} {cap : Nat}

/-- A run makes all the turns of its cap, of which none accepts or fails, and is stopped in front of
a token. -/
structure StopsAtCap (rules : List Rule) (cap : Nat) (first last : ShiftReduce) (token : Token) :
    Prop where
  reaches : Reaches rules cap first last
  next : last.unread.tokens.head? = some token

theorem run_zero_of_head? (next : last.unread.tokens.head? = some token) :
    run rules 0 last = .error (.syntactic .capReached token.position) last := by
  obtain ⟨rest, unread⟩ := List.head?_eq_some_iff.mp next
  exact run_zero unread

namespace StopsAtCap

theorem run_eq (stops : StopsAtCap rules cap first last token) :
    run rules cap first = .error (.syntactic .capReached token.position) last := by
  have same := stops.reaches.run_eq 0
  rw [Nat.zero_add] at same
  rw [same, run_zero_of_head? stops.next]

theorem resumes (stops : StopsAtCap rules cap first last token) (more : Nat) :
    run rules more last = run rules (cap + more) first := by
  rw [Nat.add_comm]
  exact (stops.reaches.run_eq more).symm

end StopsAtCap

theorem run_of_nil (unread : last.unread.tokens = []) (cap : Nat) :
    run rules cap last = .error .outOfRange last := by
  cases cap with
  | zero => exact run_zero_of_nil unread
  | succ cap => rw [run_succ, turn_of_nil unread]

/-- A run stops at its cap, or ends as it does with every higher cap. -/
theorem stopsAtCap_or_settled (rules : List Rule) (cap : Nat) (first : ShiftReduce) :
    (∃ last token, StopsAtCap rules cap first last token) ∨
      ∀ more, run rules (cap + more) first = run rules cap first := by
  cases outcome : run rules cap first with
  | ok tree after =>
      obtain ⟨turns, last, below, reaches, accepts⟩ := exists_of_run_ok outcome
      exact .inr fun more => run_of_accepts reaches (Nat.lt_add_right more below) accepts
  | error fault after =>
      obtain ⟨turns, last, reaches, ⟨below, fails⟩ | ⟨rfl, stopped⟩⟩ := exists_of_run_error outcome
      · exact .inr fun more => run_of_fails reaches (Nat.lt_add_right more below) fails
      · cases unread : last.unread.tokens with
        | cons token rest => exact .inl ⟨last, token, reaches, by rw [unread]; rfl⟩
        | nil =>
            -- With nothing left to look at, every further turn fails as the cap does.
            right
            intro more
            rw [Nat.add_comm, reaches.run_eq, run_of_nil unread, ← stopped, run_of_nil unread]

/-- A run that fails in the words of a reached cap stops at its cap, unless it has them from the
action of a rule. -/
theorem stopsAtCap_of_capReached {position : Int}
    (failed : run rules cap first = .error (.syntactic .capReached position) last) :
    (∃ token, token.position = position ∧ StopsAtCap rules cap first last token) ∨
      ∃ rule ∈ rules, ∃ children,
        rule.action.apply children = .error (.syntactic .capReached position) := by
  obtain ⟨turns, stopped, reaches, ⟨-, fails⟩ | ⟨rfl, atCap⟩⟩ := exists_of_run_error failed
  · exact .inr (exists_of_turn_capReached fails)
  · cases unread : stopped.unread.tokens with
    | nil =>
        rw [run_of_nil unread] at atCap
        cases atCap
    | cons token rest =>
        rw [run_zero unread] at atCap
        cases atCap
        exact .inl ⟨token, rfl, reaches, by rw [unread]; rfl⟩

theorem capReached_or_settled (rules : List Rule) (cap : Nat) (first : ShiftReduce) :
    (∃ last position, run rules cap first = .error (.syntactic .capReached position) last) ∨
      ∀ more, run rules (cap + more) first = run rules cap first := by
  rcases stopsAtCap_or_settled rules cap first with ⟨last, token, stops⟩ | settled
  · exact .inl ⟨last, token.position, stops.run_eq⟩
  · exact .inr settled

/-- Raising the cap of a parse changes nothing unless the cap was reached. -/
theorem parseWith_of_raised (rules : List Rule) (tokens : List Token) {low high : Int}
    (raised : low ≤ high) :
    parseWith rules tokens (some high) = parseWith rules tokens (some low) ∨
      ∃ position, parseWith rules tokens (some low) = .error (.syntactic .capReached position) := by
  unfold parseWith
  cases Token.checkStream tokens with
  | error fault => exact .inl rfl
  | ok _ =>
      cases Grammar.checkNesting tokens Grammar.maxNesting with
      | error fault => exact .inl rfl
      | ok _ =>
          simp only [bind, Except.bind, Option.getD_some]
          obtain ⟨more, sum⟩ : ∃ more, high.toNat = low.toNat + more :=
            Nat.exists_eq_add_of_le (Int.toNat_le_toNat raised)
          rcases capReached_or_settled rules low.toNat _ with ⟨last, position, failed⟩ | settled
          · right
            rw [failed]
            exact ⟨position, rfl⟩
          · left
            rw [sum, settled more]

/-- Runs resume. Where a run on a fresh machine stops at its cap, another run on the machine that it
leaves ends as one run with both caps does: with the same tree or fault, stack, unread tokens and
log. A run that fails in the words of a reached cap does stop there, unless an action of the table
fails in those words itself. Hence raising the cap changes no outcome but that of a reached cap. -/
theorem runs_resume (rules : List Rule) (tokens : List Token) (log : StepLog) (cap : Nat) :
    (∀ machine token, StopsAtCap rules cap (start tokens log) machine token →
        run rules cap (start tokens log) =
            .error (.syntactic .capReached token.position) machine ∧
          ∀ more, run rules more machine = run rules (cap + more) (start tokens log)) ∧
      (∀ machine position,
        run rules cap (start tokens log) = .error (.syntactic .capReached position) machine →
        (∃ token, token.position = position ∧
            StopsAtCap rules cap (start tokens log) machine token) ∨
          ∃ rule ∈ rules, ∃ children,
            rule.action.apply children = .error (.syntactic .capReached position)) ∧
      ((∃ machine position,
          run rules cap (start tokens log) = .error (.syntactic .capReached position) machine) ∨
        ∀ more, run rules (cap + more) (start tokens log) = run rules cap (start tokens log)) ∧
      ∀ low high : Int, low ≤ high →
        parseWith rules tokens (some high) = parseWith rules tokens (some low) ∨
          ∃ position,
            parseWith rules tokens (some low) = .error (.syntactic .capReached position) := by
  refine ⟨fun machine token stops => ⟨stops.run_eq, stops.resumes⟩,
    fun machine position => stopsAtCap_of_capReached, capReached_or_settled rules cap _, ?_⟩
  intro low high
  exact parseWith_of_raised rules tokens

/-- A table that never comes to an end: behind a numeral, its second rule folds `F` into itself. -/
def loopingTable : List Rule :=
  [⟨"F", ["NUMBER"], .number⟩, ⟨"F", ["F"], .first⟩]

def loneTwo : List Token :=
  [⟨.number, "2", 0⟩, ⟨.endOfInput, "", 1⟩]

theorem loopingTable_sparesCap :
    ∀ rule ∈ loopingTable, ∀ children, SparesCap (rule.action.apply children) := by
  intro rule member children
  simp only [loopingTable, List.mem_cons, List.not_mem_nil, or_false] at member
  rcases member with rfl | rfl
  · exact .apply .number children
  · exact .child children 0

theorem looping_run_resumes :
    ∃ machine token, StopsAtCap loopingTable 50 (start loneTwo .empty) machine token ∧
      token.position = 1 ∧
      run loopingTable 7 machine = run loopingTable 57 (start loneTwo .empty) := by
  obtain ⟨resumes, stopsOnly, -⟩ := runs_resume loopingTable loneTwo .empty 50
  have refuses : (match run loopingTable 50 (start loneTwo .empty) with
      | .error fault _ => some fault
      | .ok _ _ => none) = some (.syntactic .capReached 1) := by decide +kernel
  cases outcome : run loopingTable 50 (start loneTwo .empty) with
  | ok tree machine =>
      rw [outcome] at refuses
      cases refuses
  | error fault machine =>
      rw [outcome] at refuses
      cases refuses
      rcases stopsOnly machine 1 outcome with ⟨token, place, stops⟩ | ⟨rule, member, children, made⟩
      · exact ⟨machine, token, stops, place, (resumes machine token stops).2 7⟩
      · exact absurd made (loopingTable_sparesCap rule member children 1)

end Reckon.ShiftReduce
