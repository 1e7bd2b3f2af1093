import Reckon.Parsing.ShiftReduce
import Reckon.Proofs.Runs

/-!
# Turns of the machine

What one turn of the bottom-up parser can do, for any rule table, and what a run with a cap is in
terms of its turns: it goes through turns that fold or shift until one of them accepts or fails, or
until the cap is reached.
-/

set_option autoImplicit false

namespace Reckon.ShiftReduce

variable {rules : List Rule} {machine next : ShiftReduce} {token : Token} {rest : List Token}

theorem lookahead_eq (unread : machine.unread.tokens = token :: rest) :
    lookahead machine = .ok token machine := by
  simp [lookahead, unread]

def acceptsAt (machine : ShiftReduce) (token : Token) : Bool :=
  match machine.stack with
  | [frame] => frame.symbol == "E" && token.isEnd
  | _ => false

def shifted (machine : ShiftReduce) (token : Token) : ShiftReduce :=
  let symbol := Grammar.shiftSymbol token (machine.stack.head?.map Frame.symbol)
  let stack := ⟨symbol, .token token⟩ :: machine.stack
  let unread := machine.unread.tail
  ⟨unread, stack,
    machine.log.record .shift ("Shift token: " ++ token.text) (symbolsOf stack) unread.texts none⟩

def popped (machine : ShiftReduce) (rule : Rule) : ShiftReduce :=
  { machine with stack := uncovered rule.rhs.length machine.stack }

def reduced (machine : ShiftReduce) (rule : Rule) (item : Item) : ShiftReduce :=
  let stack := ⟨rule.lhs, item⟩ :: (machine.popped rule).stack
  ⟨machine.unread, stack,
    machine.log.record .reduce ("Reduce by rule: " ++ rule.label) (symbolsOf stack)
      machine.unread.texts rule.label⟩

/-- The items that a rule folds, from bottom to top. -/
def folded (machine : ShiftReduce) (rule : Rule) : List Item :=
  ((covered rule.rhs.length machine.stack).map Frame.item).reverse

def ruleAt? (rules : List Rule) (machine : ShiftReduce) (token : Token) : Option Rule :=
  Grammar.findReduction? rules (machine.stack.map Frame.symbol) token.symbol

@[simp] theorem tokens_shifted (machine : ShiftReduce) (token : Token) :
    (machine.shifted token).unread.tokens = machine.unread.tokens.tail := rfl

@[simp] theorem stack_shifted (machine : ShiftReduce) (token : Token) :
    (machine.shifted token).stack =
      ⟨Grammar.shiftSymbol token (machine.stack.head?.map Frame.symbol), .token token⟩ ::
        machine.stack := rfl

@[simp] theorem unread_reduced (machine : ShiftReduce) (rule : Rule) (item : Item) :
    (machine.reduced rule item).unread = machine.unread := rfl

@[simp] theorem stack_reduced (machine : ShiftReduce) (rule : Rule) (item : Item) :
    (machine.reduced rule item).stack =
      ⟨rule.lhs, item⟩ :: uncovered rule.rhs.length machine.stack := rfl

theorem accepting_eq (unread : machine.unread.tokens = token :: rest) :
    accepting machine = .ok (machine.acceptsAt token) machine := by
  obtain ⟨remaining, stack, log⟩ := machine
  unfold accepting
  rw [run_bind_ok (run_get _)]
  match stack with
  | [] => rfl
  | [frame] =>
      simp only [acceptsAt]
      cases isExpression : frame.symbol == "E" with
      | false => rfl
      | true =>
          rw [if_pos rfl, run_bind_ok (lookahead_eq unread)]
          rfl
  | _ :: _ :: _ => rfl

theorem shouldReduce_eq (unread : machine.unread.tokens = token :: rest) :
    shouldReduce rules machine = .ok (machine.ruleAt? rules token) machine := by
  unfold shouldReduce
  rw [run_bind_ok (lookahead_eq unread)]
  rfl

theorem shift_eq (unread : machine.unread.tokens = token :: rest) :
    shift machine = .ok () (machine.shifted token) := by
  unfold shift
  rw [run_bind_ok (lookahead_eq unread)]
  rfl

theorem reduce_eq (machine : ShiftReduce) (rule : Rule) :
    reduce rule machine =
      match rule.action.apply (machine.folded rule) with
      | .ok item => .ok () (machine.reduced rule item)
      | .error fault => .error fault (machine.popped rule) := by
  have pops : (modify fun machine =>
      { machine with stack := uncovered rule.rhs.length machine.stack } : Run Unit) machine =
        .ok () (machine.popped rule) := rfl
  have folds : ((covered rule.rhs.length machine.stack).map Frame.item).reverse =
      machine.folded rule := rfl
  unfold reduce
  rw [run_bind_ok (run_get machine), run_bind_ok pops, folds]
  cases rule.action.apply (machine.folded rule) <;> rfl

def accepted (machine : ShiftReduce) : ShiftReduce :=
  { machine with
    log := machine.log.record .accept "Accept: Parsing complete" machine.symbols [] none }

theorem accept_eq {frame : Frame} (single : machine.stack = [frame]) :
    accept machine =
      match frame.item with
      | .node tree => .ok tree machine.accepted
      | .token token =>
        .error (.syntactic (.notAnExpression token.text) token.position) machine.accepted := by
  have items : machine.accepted.items = [frame.item] := by simp [items, accepted, single]
  have notes : (modify fun machine : ShiftReduce =>
      { machine with
        log := machine.log.record .accept "Accept: Parsing complete" machine.symbols [] none } :
          Run Unit) machine = .ok () machine.accepted := rfl
  unfold accept
  rw [run_bind_ok notes, run_bind_ok (run_get _), items]
  cases frame.item <;> rfl

theorem acceptsAt_eq_true_iff :
    machine.acceptsAt token = true ↔
      ∃ item, machine.stack = [⟨"E", item⟩] ∧ token.isEnd = true := by
  unfold acceptsAt
  constructor
  · intro accepts
    split at accepts
    case h_1 frame single =>
      obtain ⟨symbol, item⟩ := frame
      obtain ⟨isExpression, isLast⟩ := Bool.and_eq_true_iff.mp accepts
      obtain rfl := eq_of_beq isExpression
      exact ⟨item, single, isLast⟩
    · cases accepts
  · rintro ⟨item, single, isLast⟩
    simp [single, isLast]

theorem turn_of_accepting (unread : machine.unread.tokens = token :: rest) {item : Item}
    (single : machine.stack = [⟨"E", item⟩]) (isLast : token.isEnd = true) :
    turn rules machine =
      match item with
      | .node tree => .ok (some tree) machine.accepted
      | .token token =>
        .error (.syntactic (.notAnExpression token.text) token.position) machine.accepted := by
  have accepts := acceptsAt_eq_true_iff.mpr ⟨item, single, isLast⟩
  have ends := accept_eq single
  unfold turn
  rw [run_bind_ok (accepting_eq unread), accepts, if_pos rfl]
  cases item with
  | node tree =>
      rw [run_bind_ok ends]
      rfl
  | token token => exact run_bind_error ends

theorem turn_of_rule (unread : machine.unread.tokens = token :: rest)
    (goesOn : machine.acceptsAt token = false) {rule : Rule}
    (found : machine.ruleAt? rules token = some rule) :
    turn rules machine =
      match rule.action.apply (machine.folded rule) with
      | .ok item => .ok none (machine.reduced rule item)
      | .error fault => .error fault (machine.popped rule) := by
  unfold turn
  rw [run_bind_ok (accepting_eq unread), goesOn, if_neg (by simp),
    run_bind_ok (shouldReduce_eq unread), found]
  have folds := reduce_eq machine rule
  simp only
  cases made : rule.action.apply (machine.folded rule) with
  | error fault =>
      rw [made] at folds
      exact run_bind_error folds
  | ok item =>
      rw [made] at folds
      rw [run_bind_ok folds]
      rfl

theorem turn_of_shift (unread : machine.unread.tokens = token :: rest)
    (goesOn : machine.acceptsAt token = false) (noRule : machine.ruleAt? rules token = none)
    (notLast : token.isEnd = false) : turn rules machine = .ok none (machine.shifted token) := by
  unfold turn
  rw [run_bind_ok (accepting_eq unread), goesOn, if_neg (by simp),
    run_bind_ok (shouldReduce_eq unread), noRule]
  simp only
  rw [run_bind_ok (lookahead_eq unread), notLast, if_neg (by simp), run_bind_ok (shift_eq unread)]
  rfl

theorem turn_of_stuck (unread : machine.unread.tokens = token :: rest)
    (goesOn : machine.acceptsAt token = false) (noRule : machine.ruleAt? rules token = none)
    (isLast : token.isEnd = true) :
    turn rules machine = .error (.syntactic .endsTooSoon token.position) machine := by
  unfold turn
  rw [run_bind_ok (accepting_eq unread), goesOn, if_neg (by simp),
    run_bind_ok (shouldReduce_eq unread), noRule]
  simp only
  rw [run_bind_ok (lookahead_eq unread), isLast, if_pos rfl]
  rfl

theorem turn_of_nil (unread : machine.unread.tokens = []) :
    turn rules machine = .error .outOfRange machine := by
  have noToken : lookahead machine = .error .outOfRange machine := by simp [lookahead, unread]
  have noRule : shouldReduce rules machine = .error .outOfRange machine := run_bind_error noToken
  have answer : accepting machine = .ok false machine ∨
      accepting machine = .error .outOfRange machine := by
    obtain ⟨remaining, stack, log⟩ := machine
    unfold accepting
    rw [run_bind_ok (run_get _)]
    match stack with
    | [] => exact .inl rfl
    | [frame] =>
        cases isExpression : frame.symbol == "E" with
        | false => exact .inl (by simp only [isExpression]; rfl)
        | true =>
            right
            simp only [isExpression, if_pos]
            exact run_bind_error noToken
    | _ :: _ :: _ => exact .inl rfl
  unfold turn
  rcases answer with goesOn | failed
  · rw [run_bind_ok goesOn, if_neg (by simp), run_bind_error noRule]
  · rw [run_bind_error failed]

/-- What a turn comes to, with what it has found. -/
inductive TurnOutcome (rules : List Rule) (machine : ShiftReduce) :
    EStateM.Result Fault ShiftReduce (Option (Tree Text)) → Prop where
  | starved : machine.unread.tokens = [] → TurnOutcome rules machine (.error .outOfRange machine)
  | accepted {last : Token} {rest : List Token} {tree : Tree Text} :
      machine.unread.tokens = last :: rest → last.isEnd = true →
      machine.stack = [⟨"E", .node tree⟩] →
      TurnOutcome rules machine (.ok (some tree) machine.accepted)
  | bare {last token : Token} {rest : List Token} :
      machine.unread.tokens = last :: rest → last.isEnd = true →
      machine.stack = [⟨"E", .token token⟩] →
      TurnOutcome rules machine
        (.error (.syntactic (.notAnExpression token.text) token.position) machine.accepted)
  | folded {token : Token} {rest : List Token} {rule : Rule} {item : Item} :
      machine.unread.tokens = token :: rest → machine.acceptsAt token = false →
      machine.ruleAt? rules token = some rule → rule.action.apply (machine.folded rule) = .ok item →
      TurnOutcome rules machine (.ok none (machine.reduced rule item))
  | unmade {token : Token} {rest : List Token} {rule : Rule} {fault : Fault} :
      machine.unread.tokens = token :: rest → machine.ruleAt? rules token = some rule →
      rule.action.apply (machine.folded rule) = .error fault →
      TurnOutcome rules machine (.error fault (machine.popped rule))
  | shifted {token : Token} {rest : List Token} :
      machine.unread.tokens = token :: rest → machine.acceptsAt token = false →
      machine.ruleAt? rules token = none → token.isEnd = false →
      TurnOutcome rules machine (.ok none (machine.shifted token))
  | stuck {last : Token} {rest : List Token} :
      machine.unread.tokens = last :: rest → last.isEnd = true →
      TurnOutcome rules machine (.error (.syntactic .endsTooSoon last.position) machine)

theorem turn_outcome (rules : List Rule) (machine : ShiftReduce) :
    TurnOutcome rules machine (turn rules machine) := by
  cases unread : machine.unread.tokens with
  | nil =>
      rw [turn_of_nil unread]
      exact .starved unread
  | cons token rest =>
      cases lone : machine.acceptsAt token with
      | true =>
          obtain ⟨item, single, isLast⟩ := acceptsAt_eq_true_iff.mp lone
          rw [turn_of_accepting unread single isLast]
          cases item with
          | node tree => exact .accepted unread isLast single
          | token other => exact .bare unread isLast single
      | false =>
          cases found : machine.ruleAt? rules token with
          | some rule =>
              rw [turn_of_rule unread lone found]
              cases made : rule.action.apply (machine.folded rule) with
              | ok item => exact .folded unread lone found made
              | error fault => exact .unmade unread found made
          | none =>
              cases isLast : token.isEnd with
              | true =>
                  rw [turn_of_stuck unread lone found isLast]
                  exact .stuck unread isLast
              | false =>
                  rw [turn_of_shift unread lone found isLast]
                  exact .shifted unread lone found isLast

/-- A turn that accepts finds a lone expression in front of the end of input. -/
theorem exists_of_turn_accepts {tree : Tree Text}
    (accepts : turn rules machine = .ok (some tree) next) :
    ∃ last rest, machine.unread.tokens = last :: rest ∧ last.isEnd = true ∧
      machine.stack = [⟨"E", .node tree⟩] ∧ next = machine.accepted := by
  have outcome := turn_outcome rules machine
  rw [accepts] at outcome
  cases outcome with
  | accepted unread isLast single => exact ⟨_, _, unread, isLast, single, rfl⟩

/-- A turn that fails notes nothing, unless it accepts something that is no tree. -/
theorem log_of_turn_error {fault : Fault} (failed : turn rules machine = .error fault next) :
    next.log = machine.log ∨ next.log = machine.accepted.log := by
  have outcome := turn_outcome rules machine
  rw [failed] at outcome
  cases outcome with
  | starved => exact .inl rfl
  | bare => exact .inr rfl
  | unmade => exact .inl rfl
  | stuck => exact .inl rfl

/-- What a turn does that neither accepts nor fails. -/
inductive Turned (rules : List Rule) (machine : ShiftReduce) : ShiftReduce → Prop where
  | reduced {token : Token} {rest : List Token} {rule : Rule} {item : Item} :
      machine.unread.tokens = token :: rest → machine.acceptsAt token = false →
      machine.ruleAt? rules token = some rule → rule.action.apply (machine.folded rule) = .ok item →
      Turned rules machine (machine.reduced rule item)
  | shifted {token : Token} {rest : List Token} :
      machine.unread.tokens = token :: rest → machine.acceptsAt token = false →
      machine.ruleAt? rules token = none → token.isEnd = false →
      Turned rules machine (machine.shifted token)

theorem turned_iff : turn rules machine = .ok none next ↔ Turned rules machine next := by
  constructor
  · intro turned
    have outcome := turn_outcome rules machine
    rw [turned] at outcome
    cases outcome with
    | folded unread goesOn found made => exact .reduced unread goesOn found made
    | shifted unread goesOn noRule notLast => exact .shifted unread goesOn noRule notLast
  · intro turned
    cases turned with
    | reduced unread goesOn found made => rw [turn_of_rule unread goesOn found, made]
    | shifted unread goesOn noRule notLast => exact turn_of_shift unread goesOn noRule notLast

/-- So many turns lead from one machine to another. -/
inductive Reaches (rules : List Rule) : Nat → ShiftReduce → ShiftReduce → Prop where
  | refl {machine : ShiftReduce} : Reaches rules 0 machine machine
  | turn {turns : Nat} {first second last : ShiftReduce} :
      Turned rules first second → Reaches rules turns second last →
      Reaches rules (turns + 1) first last

theorem run_succ (cap : Nat) (machine : ShiftReduce) :
    run rules (cap + 1) machine =
      match turn rules machine with
      | .ok (some tree) after => .ok tree after
      | .ok none after => run rules cap after
      | .error fault after => .error fault after := by
  rw [run]
  cases outcome : turn rules machine with
  | error fault after => exact run_bind_error outcome
  | ok result after =>
      rw [run_bind_ok outcome]
      cases result <;> rfl

theorem run_of_turned (turned : Turned rules machine next) (cap : Nat) :
    run rules (cap + 1) machine = run rules cap next := by
  rw [run_succ, turned_iff.mpr turned]

namespace Reaches

variable {turns more : Nat} {first second last : ShiftReduce}

theorem single (turned : Turned rules first second) : Reaches rules 1 first second :=
  .turn turned .refl

theorem trans (front : Reaches rules turns first second) (back : Reaches rules more second last) :
    Reaches rules (turns + more) first last := by
  induction front with
  | refl => simpa using back
  | @turn turns first middle second turned _ ih =>
      have joined := Reaches.turn turned (ih back)
      rwa [Nat.add_right_comm] at joined

/-- Turns that neither accept nor fail only use up the cap. -/
theorem run_eq (reaches : Reaches rules turns first last) (cap : Nat) :
    run rules (cap + turns) first = run rules cap last := by
  induction reaches with
  | refl => rfl
  | turn turned _ ih => rw [← Nat.add_assoc, run_of_turned turned, ih]

end Reaches

variable {turns : Nat} {first last after : ShiftReduce}

theorem run_of_accepts (reaches : Reaches rules turns first last) {cap : Nat} (below : turns < cap)
    {tree : Tree Text} (accepts : turn rules last = .ok (some tree) after) :
    run rules cap first = .ok tree after := by
  obtain ⟨left, rfl⟩ := Nat.exists_eq_add_of_lt below
  rw [Nat.add_assoc, Nat.add_comm, reaches.run_eq, run_succ, accepts]

theorem run_of_fails (reaches : Reaches rules turns first last) {cap : Nat} (below : turns < cap)
    {fault : Fault} (fails : turn rules last = .error fault after) :
    run rules cap first = .error fault after := by
  obtain ⟨left, rfl⟩ := Nat.exists_eq_add_of_lt below
  rw [Nat.add_assoc, Nat.add_comm, reaches.run_eq, run_succ, fails]

section Determined

variable {more : Nat} {other otherAfter : ShiftReduce} {tree : Tree Text}

/-- The ways from a machine to an accepting turn all end alike. -/
theorem eq_of_accepts (reaches : Reaches rules turns first last)
    (accepts : turn rules last = .ok (some tree) after)
    (reachesOther : Reaches rules more first other)
    {otherTree : Tree Text} (acceptsOther : turn rules other = .ok (some otherTree) otherAfter) :
    after = otherAfter := by
  have one := run_of_accepts reaches (by omega : turns < turns + more + 1) accepts
  have two := run_of_accepts reachesOther (by omega : more < turns + more + 1) acceptsOther
  cases one.symm.trans two
  rfl

theorem not_fails_of_accepts (reaches : Reaches rules turns first last)
    (accepts : turn rules last = .ok (some tree) after)
    (reachesOther : Reaches rules more first other)
    {fault : Fault} : turn rules other ≠ .error fault otherAfter := by
  intro fails
  have one := run_of_accepts reaches (by omega : turns < turns + more + 1) accepts
  have two := run_of_fails reachesOther (by omega : more < turns + more + 1) fails
  cases one.symm.trans two

end Determined

theorem run_zero (unread : machine.unread.tokens = token :: rest) :
    run rules 0 machine = .error (.syntactic .capReached token.position) machine := by
  rw [run, run_bind_ok (lookahead_eq unread)]
  rfl

theorem run_zero_of_nil (unread : machine.unread.tokens = []) :
    run rules 0 machine = .error .outOfRange machine := by
  rw [run]
  exact run_bind_error (by simp [lookahead, unread])

/-- A run that returns a tree does so by a turn before its cap. -/
theorem exists_of_run_ok {cap : Nat} {tree : Tree Text}
    (done : run rules cap machine = .ok tree next) :
    ∃ turns last, turns < cap ∧ Reaches rules turns machine last ∧
      turn rules last = .ok (some tree) next := by
  induction cap generalizing machine with
  | zero =>
      cases unread : machine.unread.tokens with
      | nil =>
          rw [run_zero_of_nil unread] at done
          cases done
      | cons token rest =>
          rw [run_zero unread] at done
          cases done
  | succ cap ih =>
      rw [run_succ] at done
      cases outcome : turn rules machine with
      | error fault after =>
          rw [outcome] at done
          cases done
      | ok result after =>
          rw [outcome] at done
          cases result with
          | some other =>
              cases done
              exact ⟨0, machine, Nat.succ_pos cap, .refl, outcome⟩
          | none =>
              obtain ⟨turns, last, below, reaches, accepts⟩ := ih done
              exact ⟨turns + 1, last, Nat.succ_lt_succ below,
                .turn (turned_iff.mp outcome) reaches, accepts⟩

/-- A run that fails does so by a turn before its cap, or because it goes on at its cap. -/
theorem exists_of_run_error {cap : Nat} {fault : Fault}
    (failed : run rules cap machine = .error fault next) :
    ∃ turns last, Reaches rules turns machine last ∧
      ((turns < cap ∧ turn rules last = .error fault next) ∨
        (turns = cap ∧ run rules 0 last = .error fault next)) := by
  induction cap generalizing machine with
  | zero => exact ⟨0, machine, .refl, .inr ⟨rfl, failed⟩⟩
  | succ cap ih =>
      rw [run_succ] at failed
      cases outcome : turn rules machine with
      | error other after =>
          rw [outcome] at failed
          cases failed
          exact ⟨0, machine, .refl, .inl ⟨Nat.succ_pos cap, outcome⟩⟩
      | ok result after =>
          rw [outcome] at failed
          cases result with
          | some other => cases failed
          | none =>
              obtain ⟨turns, last, reaches, ends⟩ := ih failed
              refine ⟨turns + 1, last, .turn (turned_iff.mp outcome) reaches, ?_⟩
              rcases ends with ⟨below, fails⟩ | ⟨rfl, fails⟩
              · exact .inl ⟨Nat.succ_lt_succ below, fails⟩
              · exact .inr ⟨rfl, fails⟩

/-- However a run ends, its log is that of a machine on its way, or one step longer. -/
theorem exists_of_run_leaves {cap : Nat} (ends : Leaves (run rules cap) machine next) :
    ∃ turns last, Reaches rules turns machine last ∧
      (next.log = last.log ∨ next.log = last.accepted.log) := by
  rcases ends with ⟨tree, done⟩ | ⟨fault, failed⟩
  · obtain ⟨turns, last, -, reaches, accepts⟩ := exists_of_run_ok done
    obtain ⟨_, _, _, _, _, rfl⟩ := exists_of_turn_accepts accepts
    exact ⟨turns, last, reaches, .inr rfl⟩
  · obtain ⟨turns, last, reaches, ends⟩ := exists_of_run_error failed
    refine ⟨turns, last, reaches, ?_⟩
    rcases ends with ⟨-, refused⟩ | ⟨-, stopped⟩
    · exact log_of_turn_error refused
    · cases unread : last.unread.tokens with
      | nil =>
          rw [run_zero_of_nil unread] at stopped
          cases stopped
          exact .inl rfl
      | cons token rest =>
          rw [run_zero unread] at stopped
          cases stopped
          exact .inl rfl

end Reckon.ShiftReduce
