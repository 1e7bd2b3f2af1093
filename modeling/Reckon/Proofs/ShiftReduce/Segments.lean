import Reckon.Proofs.ShiftReduce.TwoStacks

/-!
# Segments of what was read

The frames of the machine, from bottom to top, stand for segments of the tokens that follow each
other: together they are exactly what was read. So nothing that a rule of the grammar folds is of
the wrong kind, and a fold fails for one reason only, a numeral beyond the finite doubles, which it
has taken off the stack by then.
-/

set_option autoImplicit false

namespace Reckon

/-- A computation fails only because an item is missing or is a token where a tree is wanted. -/
def FailsByKind {α : Type} (computation : Except Fault α) : Prop :=
  ∀ fault, computation = .error fault → fault = .outOfRange ∨
    ∃ token : Token, fault = .syntactic (.notAnExpression token.text) token.position

namespace FailsByKind

theorem bind {α β : Type} {computation : Except Fault α} {rest : α → Except Fault β}
    (first : FailsByKind computation) (second : ∀ value, FailsByKind (rest value)) :
    FailsByKind (computation >>= rest) := by
  intro fault failed
  rcases except_bind_error failed with refused | ⟨value, -, refused⟩
  · exact first fault refused
  · exact second value fault refused

theorem pure {α : Type} (value : α) : FailsByKind (.ok value : Except Fault α) := nofun

theorem child (children : List Item) (place : Nat) :
    FailsByKind (Action.child children place) := by
  intro fault failed
  unfold Action.child at failed
  split at failed
  · cases failed
  · cases failed
    exact .inl rfl

theorem tree (item : Item) : FailsByKind item.tree := by
  intro fault failed
  cases item with
  | token token =>
      cases failed
      exact .inr ⟨token, rfl⟩
  | node made => cases failed

theorem not_overflows {α : Type} {computation : Except Fault α} (fails : FailsByKind computation)
    {tokens : List Token} {fault : Fault} (overflows : Overflows tokens fault) :
    computation ≠ .error fault := by
  intro failed
  obtain ⟨numeral, -, -, rfl⟩ := overflows
  rcases fails _ failed with missing | ⟨token, bare⟩
  · cases missing
  · cases bare

end FailsByKind

namespace ShiftReduce

variable {stack : List Frame} {seen tokens : List Token} {machine next : ShiftReduce}

/-- From bottom to top, frames stand for segments that follow each other and make up the tokens. -/
def StandsFor (stack : List Frame) (seen : List Token) : Prop :=
  ∃ segments : List (List Token), List.Forall₂ Stands stack.reverse segments ∧
    segments.flatten = seen

theorem Stacked.standsFor (stacked : Stacked stack seen) : StandsFor stack seen := by
  induction stacked with
  | nil => exact ⟨[], .nil, rfl⟩
  | @cons frame stack part seen stands _ ih =>
      obtain ⟨segments, standing, rfl⟩ := ih
      refine ⟨segments ++ [part], ?_, by simp⟩
      rw [List.reverse_cons]
      exact List.rel_append standing (.cons stands .nil)

/-- Apart from the reading of numerals no production reads one. -/
theorem Production.numeral_or_failsByKind {rule : Rule} (production : Production rule) :
    rule = ⟨"F", ["NUMBER"], .number⟩ ∨ ∀ children, FailsByKind (rule.action.apply children) := by
  cases production with
  | numeral => exact .inl rfl
  | group =>
      exact .inr fun children => (FailsByKind.child children 1).bind fun item =>
        (FailsByKind.tree item).bind fun _ => .pure _
  | signed =>
      exact .inr fun children => (FailsByKind.child children 1).bind fun item =>
        (FailsByKind.tree item).bind fun _ => .pure _
  | only =>
      exact .inr fun children => (FailsByKind.child children 0).bind fun item =>
        (FailsByKind.tree item).bind fun _ => .pure _
  | fold =>
      refine .inr fun children => (FailsByKind.child children 0).bind fun left =>
        (FailsByKind.tree left).bind fun _ => ?_
      exact (FailsByKind.child children 2).bind fun right =>
        (FailsByKind.tree right).bind fun _ => .pure _

/-- A fold of a sound machine fails only for a numeral beyond the finite doubles, which is the last
token that was read. -/
theorem Sound.exists_of_unmade (sound : Sound tokens machine seen) {token : Token} {rule : Rule}
    {fault : Fault} (found : machine.ruleAt? Rule.table token = some rule)
    (failed : rule.action.apply (machine.folded rule) = .error fault) :
    ∃ before numeral, seen = before ++ [numeral] ∧ numeral.isUnbounded = true ∧
      fault = .syntactic (.unboundedNumeral numeral.text) numeral.position ∧
      Stacked (machine.popped rule).stack before := by
  obtain ⟨member, top, -⟩ := Grammar.findReduction?_spec found
  have overflows := (sound.keeps found).overflows failed
  rcases (production_of_mem member).numeral_or_failsByKind with rfl | byKind
  · obtain ⟨frame, below, part, before, stack, isSymbol, -, rfl, stands, stackedBelow⟩ :=
      sound.stacked.of_top top
    obtain ⟨numeral, item, rfl, marks⟩ :=
      stands.marked isSymbol (terminal_of_notMem (by decide))
    have reads : machine.folded ⟨"F", ["NUMBER"], .number⟩ = [.token numeral] := by
      simp [folded, covered, stack, item]
    have unmade : numeral.number = .error fault := by
      rw [reads, apply_number] at failed
      cases made : numeral.number with
      | ok tree =>
          rw [made] at failed
          cases failed
      | error other =>
          rw [made] at failed
          cases failed
          rfl
    have refused : Overflows [numeral] fault :=
      marks.isNumeral.overflows unmade (List.mem_singleton_self numeral)
    obtain ⟨other, isNumeral, unbounded, rfl⟩ := refused
    obtain rfl := List.mem_singleton.mp isNumeral
    refine ⟨before, other, rfl, unbounded, rfl, ?_⟩
    simpa [popped, uncovered, stack] using stackedBelow
  · exact absurd failed ((byKind _).not_overflows overflows)

theorem Sound.take_cursor (sound : Sound tokens machine seen) :
    tokens.take (machine.cursor tokens) = seen := by
  have read : machine.cursor tokens = seen.length := by
    rw [cursor, sound.tokens_eq, List.length_append]
    omega
  rw [read, sound.tokens_eq, List.take_left]

theorem stateOf_run_zero (rules : List Rule) (machine : ShiftReduce) :
    stateOf (run rules 0 machine) = machine := by
  cases unread : machine.unread.tokens with
  | nil => rw [run_zero_of_nil unread, stateOf]
  | cons token rest => rw [run_zero unread, stateOf]

/-- A run leaves the machine that its turns lead to, if none of them accepts or fails. -/
theorem Reaches.stateOf_run {rules : List Rule} {turns : Nat}
    (reaches : Reaches rules turns machine next) : stateOf (run rules turns machine) = next := by
  have same := reaches.run_eq 0
  rw [Nat.zero_add] at same
  rw [same, stateOf_run_zero]

/-- The frames of a machine stand for what it has read. -/
def StandsForRead (tokens : List Token) (machine : ShiftReduce) : Prop :=
  StandsFor machine.stack (tokens.take (machine.cursor tokens))

theorem Sound.standsForRead (sound : Sound tokens machine seen) : StandsForRead tokens machine := by
  rw [StandsForRead, sound.take_cursor]
  exact sound.stacked.standsFor

/-- The last numeral that a machine has read is beyond the finite doubles. It was refused with a
fault and taken off the stack, which stands for what was read before. -/
def RefusedNumeral (tokens : List Token) (fault : Fault) (machine : ShiftReduce) : Prop :=
  ∃ before numeral, tokens.take (machine.cursor tokens) = before ++ [numeral] ∧
    numeral.isUnbounded = true ∧
    fault = .syntactic (.unboundedNumeral numeral.text) numeral.position ∧
    StandsFor machine.stack before

theorem Sound.turn_fails (sound : Sound tokens machine seen) {fault : Fault}
    (failed : turn Rule.table machine = .error fault next) :
    StandsForRead tokens next ∨ RefusedNumeral tokens fault next := by
  have outcome := turn_outcome Rule.table machine
  rw [failed] at outcome
  cases outcome with
  | starved => exact .inl sound.standsForRead
  | bare => exact .inl sound.standsForRead
  | stuck => exact .inl sound.standsForRead
  | @unmade token rest rule _ unread found refused =>
      obtain ⟨before, numeral, seen_eq, unbounded, shape, stacked⟩ :=
        sound.exists_of_unmade found refused
      refine .inr ⟨before, numeral, ?_, unbounded, shape, stacked.standsFor⟩
      exact sound.take_cursor.trans seen_eq

theorem exists_sound (terminated : Terminated tokens) (log : StepLog) {turns : Nat}
    (reaches : Reaches Rule.table turns (start tokens log) machine) :
    ∃ seen, Sound tokens machine seen :=
  Sound.reaches ⟨[], Sound.start terminated log⟩ reaches

theorem standsForRead_of_run_ok (terminated : Terminated tokens) (log : StepLog) {cap : Nat}
    {tree : Tree Text} (done : run Rule.table cap (start tokens log) = .ok tree next) :
    StandsForRead tokens next := by
  obtain ⟨turns, last, -, reaches, accepts⟩ := exists_of_run_ok done
  obtain ⟨seen, sound⟩ := exists_sound terminated log reaches
  obtain ⟨_, _, _, _, _, rfl⟩ := exists_of_turn_accepts accepts
  exact sound.standsForRead

theorem standsForRead_of_run_error (terminated : Terminated tokens) (log : StepLog) {cap : Nat}
    {fault : Fault} (failed : run Rule.table cap (start tokens log) = .error fault next) :
    StandsForRead tokens next ∨ RefusedNumeral tokens fault next := by
  obtain ⟨turns, last, reaches, ⟨-, fails⟩ | ⟨-, stopped⟩⟩ := exists_of_run_error failed
  · obtain ⟨seen, sound⟩ := exists_sound terminated log reaches
    exact sound.turn_fails fails
  · obtain ⟨seen, sound⟩ := exists_sound terminated log reaches
    have same := stateOf_run_zero Rule.table last
    rw [stopped, stateOf] at same
    exact .inl (same ▸ sound.standsForRead)

/-- With the table of the grammar only a run that goes on at its cap fails in the words of a reached
cap. -/
theorem reaches_of_capReached {cap : Nat} {position : Int}
    (failed : run Rule.table cap machine = .error (.syntactic .capReached position) next) :
    Reaches Rule.table cap machine next := by
  rcases stopsAtCap_of_capReached failed with ⟨token, -, stops⟩ | ⟨rule, member, children, made⟩
  · exact stops.reaches
  · exact absurd made (SparesCap.apply (Grammar.table_buildsTrees rule member) children position)

/-- What a run of a sound machine fails with is not about an item that is missing or of the wrong
kind. -/
theorem notByKind_of_ends {fault : Fault}
    (ends : Refuses tokens fault ∨
      ∃ token ∈ tokens, fault = .syntactic .capReached token.position) :
    fault ≠ .outOfRange ∧ ∀ text position, fault ≠ .syntactic (.notAnExpression text) position := by
  rcases ends with ⟨cause, token, -, rfl, notDefensive, -⟩ | ⟨token, -, rfl⟩
  · constructor
    · intro missing
      cases missing
    · intro text position bare
      cases bare
      cases notDefensive
  · constructor
    · intro missing
      cases missing
    · intro text position bare
      cases bare

/-- What can be seen of a machine whose run has come to its cap: its symbols and the tokens that
are left. -/
def atCap : EStateM.Result Fault ShiftReduce (Tree Text) → Option (List Text × List Token)
  | .error (.syntactic .capReached _) machine => some (machine.symbols, machine.unread.tokens)
  | _ => none

theorem exists_reaches_of_atCap {cap : Nat} {symbols : List Text} {unread : List Token}
    (seen : atCap (run Rule.table cap machine) = some (symbols, unread)) :
    ∃ last, Reaches Rule.table cap machine last ∧ last.symbols = symbols ∧
      last.unread.tokens = unread := by
  unfold atCap at seen
  split at seen
  case h_1 position last outcome =>
    obtain ⟨rfl, rfl⟩ := Prod.mk.inj (Option.some.inj seen)
    exact ⟨last, reaches_of_capReached outcome, rfl, rfl⟩
  case h_2 => cases seen

/-- What the stack of the machine stands for, on every stream of lexemes. In every state that the
turns of a run lead to, symbols and items are equally many, and from bottom to top they stand for
segments of the stream that make up exactly what was read: a terminal for its own token, a
nonterminal for the tokens of a derivation whose meaning is beside it. What a rule folds is of the
right kind, so its action fails for a numeral beyond the finite doubles only. When a run ends, its
stack stands for what was read as well, less such a numeral if one was refused; and a tree that it
returns is the meaning of the stream. -/
theorem stack_stands_for_what_was_read (terminated : Terminated tokens) (log : StepLog) :
    (∀ turns machine, Reaches Rule.table turns (start tokens log) machine →
      (∃ lists : TwoStacks,
          lists = stateOf (TwoStacks.run Rule.table turns (.start tokens log)) ∧
          lists.symbols = machine.symbols ∧ lists.values = machine.items ∧
          lists.cursor = machine.cursor tokens ∧ lists.symbols.length = lists.values.length) ∧
        StandsForRead tokens machine ∧
        ∀ token rule fault, machine.ruleAt? Rule.table token = some rule →
          rule.action.apply (machine.folded rule) = .error fault →
          RefusedNumeral tokens fault (machine.popped rule)) ∧
      (∀ cap tree after, run Rule.table cap (start tokens log) = .ok tree after →
        StandsForRead tokens after ∧ Means tokens tree) ∧
      ∀ cap fault after, run Rule.table cap (start tokens log) = .error fault after →
        (StandsForRead tokens after ∨ RefusedNumeral tokens fault after) ∧
          fault ≠ .outOfRange ∧
          ∀ text position, fault ≠ .syntactic (.notAnExpression text) position := by
  refine ⟨?_, ?_, ?_⟩
  · intro turns machine reaches
    obtain ⟨seen, sound⟩ := exists_sound terminated log reaches
    refine ⟨?_, sound.standsForRead, ?_⟩
    · have mirrors := (TwoStacks.run_mirrored Rule.table turns _ _
        (TwoStacks.Mirrors.start tokens log)).stateOf
      rw [reaches.stateOf_run] at mirrors
      refine ⟨_, rfl, mirrors.symbols_eq, mirrors.values_eq, mirrors.cursor_eq, ?_⟩
      rw [mirrors.symbols_eq, mirrors.values_eq]
      simp [symbols, symbolsOf, items]
    · intro token rule fault found refused
      obtain ⟨before, numeral, seen_eq, unbounded, shape, stacked⟩ :=
        sound.exists_of_unmade found refused
      exact ⟨before, numeral, sound.take_cursor.trans seen_eq, unbounded, shape, stacked.standsFor⟩
  · intro cap tree after done
    exact ⟨standsForRead_of_run_ok terminated log done,
      ((Sound.start terminated log).run_ends cap).ok done⟩
  · intro cap fault after failed
    have ends := ((Sound.start terminated log).run_ends cap).error failed
    exact ⟨standsForRead_of_run_error terminated log failed, notByKind_of_ends ends⟩

/-- The tokens of `2-(-1`, which no expression has. -/
def unfinishedGroup : List Token :=
  [⟨.number, "2", 0⟩, ⟨.operator, "-", 1⟩, ⟨.leftParenthesis, "(", 2⟩, ⟨.operator, "-", 3⟩,
    ⟨.number, "1", 4⟩, ⟨.endOfInput, "", 5⟩]

theorem unfinishedGroup_terminated : Terminated unfinishedGroup :=
  .lexeme (.numeral (Token.isNumeral_of_digit '2' rfl 0)) <|
    .lexeme (.additive ⟨rfl, .inr rfl⟩) <| .lexeme (.opening ⟨rfl, rfl⟩) <|
      .lexeme (.additive ⟨rfl, .inr rfl⟩) <|
        .lexeme (.numeral (Token.isNumeral_of_digit '1' rfl 4)) <|
          .last rfl

/-- Everything has been read, and the four frames stand for five tokens. -/
theorem unfinishedGroup_is_stacked :
    ∃ machine, Reaches Rule.table 12 (start unfinishedGroup .empty) machine ∧
      machine.symbols = (["E", "-", "(", "E"] : List Text) ∧ machine.cursor unfinishedGroup = 5 ∧
      StandsForRead unfinishedGroup machine := by
  have seen : atCap (run Rule.table 12 (start unfinishedGroup .empty)) =
      some ((["E", "-", "(", "E"] : List Text), [⟨.endOfInput, "", 5⟩]) := by decide +kernel
  obtain ⟨machine, reaches, symbols, unread⟩ := exists_reaches_of_atCap seen
  have stands := ((stack_stands_for_what_was_read unfinishedGroup_terminated .empty).1 12
    machine reaches).2.1
  refine ⟨machine, reaches, symbols, ?_, stands⟩
  rw [cursor, unread]
  rfl

end ShiftReduce

end Reckon
