import Reckon.Proofs.Pairings
import Reckon.Proofs.ShiftReduce.Audit
import Reckon.Proofs.ShiftReduce.Resumption

/-!
# The machine with two lists

The stack of the machine holds symbols together with what they stand for. Here symbols and items are
lists of their own, which are cut and extended one after the other, and a fold cuts both of them
before the action of its rule can fail. However the machine is driven, the two lists stay in
lockstep with each other and with what was read and noted, and they show what the one stack shows.
-/

set_option autoImplicit false

namespace Reckon

section Slices

variable {α : Type}

/-- The last elements of a list. A width of zero stands for all of them, and so does one that the
list does not have. -/
def lastOf (width : Nat) (list : List α) : List α :=
  if width = 0 then list else list.drop (list.length - width)

/-- The elements in front of the last ones. -/
def withoutLast (width : Nat) (list : List α) : List α :=
  if width = 0 then [] else list.take (list.length - width)

theorem map_covered {β : Type} (change : α → β) (width : Nat) (stack : List α) :
    (covered width stack).map change = covered width (stack.map change) := by
  unfold covered
  split
  · rfl
  · exact List.map_take

theorem length_withoutLast (width : Nat) (list : List α) :
    (withoutLast width list).length = if width = 0 then 0 else list.length - width := by
  unfold withoutLast
  split
  · rfl
  · rw [List.length_take]
    omega

theorem lastOf_reverse (width : Nat) (stack : List α) :
    lastOf width stack.reverse = (covered width stack).reverse := by
  unfold lastOf covered
  split
  · rfl
  · rw [List.drop_reverse, List.length_reverse]
    rcases Nat.le_total width stack.length with fits | overlong
    · rw [Nat.sub_sub_self fits]
    · rw [Nat.sub_eq_zero_of_le overlong, Nat.sub_zero, List.take_length,
        List.take_of_length_le overlong]

theorem withoutLast_reverse (width : Nat) (stack : List α) :
    withoutLast width stack.reverse = (uncovered width stack).reverse := by
  unfold withoutLast uncovered
  split
  · rfl
  · rw [List.take_reverse, List.length_reverse]
    rcases Nat.le_total width stack.length with fits | overlong
    · rw [Nat.sub_sub_self fits]
    · rw [Nat.sub_eq_zero_of_le overlong, Nat.sub_zero, List.drop_length,
        List.drop_of_length_le overlong]

end Slices

/-- The state of the machine with two lists, both from bottom to top, over tokens of which so many
have been read. -/
structure TwoStacks where
  tokens : List Token
  cursor : Nat
  symbols : List Text
  values : List Item
  log : StepLog

namespace TwoStacks

abbrev Run (α : Type) := EStateM Fault TwoStacks α

def start (tokens : List Token) (log : StepLog) : TwoStacks :=
  ⟨tokens, 0, [], [], log⟩

/-- The texts of the tokens that are still to be read. -/
def remaining (lists : TwoStacks) : List Text :=
  (lists.tokens.drop lists.cursor).map Token.shown

def lookahead : Run Token := fun lists =>
  match lists.tokens[lists.cursor]? with
  | some token => .ok token lists
  | none => .error .outOfRange lists

def note (action : StepAction) (description : Text) (rule : Option Text) : Run Unit :=
  modify fun lists =>
    { lists with log := lists.log.record action description lists.symbols lists.remaining rule }

def accepting : Run Bool := do
  if (← get).symbols = (["E"] : List Text) then return (← lookahead).isEnd else return false

def matchesEnd (rule : Rule) (symbols : List Text) : Bool :=
  rule.rhs.length ≤ symbols.length && lastOf rule.rhs.length symbols == rule.rhs

def shouldReduce (rules : List Rule) : Run (Option Rule) := do
  let token ← lookahead
  let symbols := (← get).symbols
  return rules.find? fun rule => matchesEnd rule symbols && Grammar.canReduce rule.lhs token.symbol

def shift : Run Unit := do
  let token ← lookahead
  modify fun lists =>
    { lists with symbols :=
        lists.symbols ++ [Grammar.shiftSymbol token lists.symbols.getLast?] }
  modify fun lists => { lists with values := lists.values ++ [.token token] }
  modify fun lists => { lists with cursor := lists.cursor + 1 }
  note .shift ("Shift token: " ++ token.text) none

def reduce (rule : Rule) : Run Unit := do
  let children := lastOf rule.rhs.length (← get).values
  modify fun lists => { lists with values := withoutLast rule.rhs.length lists.values }
  modify fun lists => { lists with symbols := withoutLast rule.rhs.length lists.symbols }
  match rule.action.apply children with
  | .error fault => throw fault
  | .ok item =>
    modify fun lists => { lists with values := lists.values ++ [item] }
    modify fun lists => { lists with symbols := lists.symbols ++ [rule.lhs] }
    note .reduce ("Reduce by rule: " ++ rule.label) (some rule.label)

def accept : Run (Tree Text) := do
  modify fun lists =>
    { lists with
      log := lists.log.record .accept "Accept: Parsing complete" lists.symbols [] none }
  match (← get).values.head? with
  | some (.node tree) => return tree
  | some (.token token) => throw (.syntactic (.notAnExpression token.text) token.position)
  | none => throw .outOfRange

def turn (rules : List Rule) : Run (Option (Tree Text)) := do
  if ← accepting then return some (← accept)
  else
    match ← shouldReduce rules with
    | some rule => reduce rule; return none
    | none =>
      let token ← lookahead
      if token.isEnd then throw (.syntactic .endsTooSoon token.position)
      else shift; return none

def run (rules : List Rule) : Nat → Run (Tree Text)
  | 0 => do throw (.syntactic .capReached (← lookahead).position)
  | cap + 1 => do
    match ← turn rules with
    | some tree => return tree
    | none => run rules cap

end TwoStacks

/-- A call from outside: a shift, a fold by any rule, or a run with a cap. -/
inductive Operation where
  | shift
  | reduce (rule : Rule)
  | run (cap : Int)

/-- The state that calls leave, one after the other, whether they return or fail. -/
def driven {σ α : Type} (perform : Operation → EStateM Fault σ α) (operations : List Operation)
    (state : σ) : σ :=
  operations.foldl (fun state operation => stateOf (perform operation state)) state

def ShiftReduce.perform (rules : List Rule) : Operation → ShiftReduce.Run (Option (Tree Text))
  | .shift => do ShiftReduce.shift; return none
  | .reduce rule => do ShiftReduce.reduce rule; return none
  | .run cap => do return some (← ShiftReduce.run rules cap.toNat)

def TwoStacks.perform (rules : List Rule) : Operation → TwoStacks.Run (Option (Tree Text))
  | .shift => do TwoStacks.shift; return none
  | .reduce rule => do TwoStacks.reduce rule; return none
  | .run cap => do return some (← TwoStacks.run rules cap.toNat)

namespace TwoStacks

variable {rules : List Rule} {tokens : List Token} {lists : TwoStacks} {token : Token}

def shifted (lists : TwoStacks) (token : Token) : TwoStacks :=
  let symbols := lists.symbols ++ [Grammar.shiftSymbol token lists.symbols.getLast?]
  ⟨lists.tokens, lists.cursor + 1, symbols, lists.values ++ [.token token],
    lists.log.record .shift ("Shift token: " ++ token.text) symbols
      ((lists.tokens.drop (lists.cursor + 1)).map Token.shown) none⟩

def popped (lists : TwoStacks) (rule : Rule) : TwoStacks :=
  { lists with
    symbols := withoutLast rule.rhs.length lists.symbols
    values := withoutLast rule.rhs.length lists.values }

def reduced (lists : TwoStacks) (rule : Rule) (item : Item) : TwoStacks :=
  let symbols := (lists.popped rule).symbols ++ [rule.lhs]
  ⟨lists.tokens, lists.cursor, symbols, (lists.popped rule).values ++ [item],
    lists.log.record .reduce ("Reduce by rule: " ++ rule.label) symbols lists.remaining
      (some rule.label)⟩

def accepted (lists : TwoStacks) : TwoStacks :=
  { lists with
    log := lists.log.record .accept "Accept: Parsing complete" lists.symbols [] none }

theorem lookahead_eq (next : lists.tokens[lists.cursor]? = some token) :
    lookahead lists = .ok token lists := by
  simp [lookahead, next]

theorem lookahead_error (next : lists.tokens[lists.cursor]? = none) :
    lookahead lists = .error .outOfRange lists := by
  simp [lookahead, next]

theorem shift_eq (next : lists.tokens[lists.cursor]? = some token) :
    shift lists = .ok () (lists.shifted token) := by
  unfold shift
  rw [run_bind_ok (lookahead_eq next)]
  rfl

theorem reduce_eq (lists : TwoStacks) (rule : Rule) :
    reduce rule lists =
      match rule.action.apply (lastOf rule.rhs.length lists.values) with
      | .ok item => .ok () (lists.reduced rule item)
      | .error fault => .error fault (lists.popped rule) := by
  unfold reduce
  rw [run_bind_ok (run_get lists)]
  cases made : rule.action.apply (lastOf rule.rhs.length lists.values) <;>
    rfl

theorem accept_eq (lists : TwoStacks) :
    accept lists =
      match lists.values.head? with
      | some (.node tree) => .ok tree lists.accepted
      | some (.token token) =>
        .error (.syntactic (.notAnExpression token.text) token.position) lists.accepted
      | none => .error .outOfRange lists.accepted := by
  have notes : (modify fun lists : TwoStacks =>
      { lists with
        log := lists.log.record .accept "Accept: Parsing complete" lists.symbols [] none } :
          Run Unit) lists = .ok () lists.accepted := rfl
  have values : lists.accepted.values = lists.values := rfl
  unfold accept
  rw [run_bind_ok notes, run_bind_ok (run_get _), values]
  rcases lists.values.head? with _ | (token | tree) <;> rfl

section Lockstep

/-- The two lists are equally long, as many tokens were read as shifts were noted, none behind the
last one, and the steps are numbered. -/
structure Lockstep (tokens : List Token) (log : StepLog) (lists : TwoStacks) : Prop where
  lengths : lists.symbols.length = lists.values.length
  tokens_eq : lists.tokens = tokens
  cursor_le : lists.cursor ≤ tokens.length
  shifts : countActions lists.log.toList .shift = countActions log.toList .shift + lists.cursor
  numbered : Numbered lists.log.toList

variable {log : StepLog}

namespace Lockstep

theorem start (tokens : List Token) (numbered : Numbered log.toList) :
    Lockstep tokens log (start tokens log) :=
  ⟨rfl, rfl, Nat.zero_le _, rfl, numbered⟩

theorem shifted (lockstep : Lockstep tokens log lists)
    (next : lists.tokens[lists.cursor]? = some token) :
    Lockstep tokens log (lists.shifted token) where
  lengths := by
    have lengths := lockstep.lengths
    simp [TwoStacks.shifted, lengths]
  tokens_eq := lockstep.tokens_eq
  cursor_le := by
    obtain ⟨below, -⟩ := List.getElem?_eq_some_iff.mp next
    rw [lockstep.tokens_eq] at below
    exact below
  shifts := by
    have shifts := lockstep.shifts
    rw [TwoStacks.shifted, StepLog.countActions_record, shifts]
    rfl
  numbered := StepLog.numbered_record lockstep.numbered _ _ _ _ _

/-- A fold cuts both lists alike, also where its width is that of neither. -/
theorem popped (lockstep : Lockstep tokens log lists) (rule : Rule) :
    Lockstep tokens log (lists.popped rule) where
  lengths := by
    have lengths := lockstep.lengths
    simp only [TwoStacks.popped, length_withoutLast, lengths]
  tokens_eq := lockstep.tokens_eq
  cursor_le := lockstep.cursor_le
  shifts := lockstep.shifts
  numbered := lockstep.numbered

theorem reduced (lockstep : Lockstep tokens log lists) (rule : Rule) (item : Item) :
    Lockstep tokens log (lists.reduced rule item) where
  lengths := by
    have lengths := (lockstep.popped rule).lengths
    simp [TwoStacks.reduced, lengths]
  tokens_eq := lockstep.tokens_eq
  cursor_le := lockstep.cursor_le
  shifts := by
    have shifts := lockstep.shifts
    rw [TwoStacks.reduced, StepLog.countActions_record, shifts]
    rfl
  numbered := StepLog.numbered_record lockstep.numbered _ _ _ _ _

theorem accepted (lockstep : Lockstep tokens log lists) :
    Lockstep tokens log lists.accepted where
  lengths := lockstep.lengths
  tokens_eq := lockstep.tokens_eq
  cursor_le := lockstep.cursor_le
  shifts := by
    have shifts := lockstep.shifts
    rw [TwoStacks.accepted, StepLog.countActions_record, shifts]
    rfl
  numbered := StepLog.numbered_record lockstep.numbered _ _ _ _ _

end Lockstep

/-- From lists in lockstep a run comes to lists in lockstep, whether it returns or fails. -/
def Keeps {α : Type} (tokens : List Token) (log : StepLog) (run : Run α) : Prop :=
  ∀ lists, Lockstep tokens log lists →
    Arrives run lists (fun _ => Lockstep tokens log) (Lockstep tokens log)

theorem Keeps.bind {α β : Type} {run : Run α} {next : α → Run β} (first : Keeps tokens log run)
    (rest : ∀ value, Keeps tokens log (next value)) : Keeps tokens log (run >>= next) :=
  fun lists lockstep => (first lists lockstep).bind fun value middle => rest value middle

theorem Keeps.pure {α : Type} (value : α) : Keeps tokens log (pure value) :=
  fun _ lockstep => .of_ok rfl lockstep

theorem Keeps.throw {α : Type} (fault : Fault) : Keeps tokens log (throw fault : Run α) :=
  fun _ lockstep => .of_error rfl lockstep

theorem keeps_lookahead : Keeps tokens log lookahead := by
  intro lists lockstep
  cases next : lists.tokens[lists.cursor]? with
  | some token => exact .of_ok (lookahead_eq next) lockstep
  | none => exact .of_error (lookahead_error next) lockstep

theorem keeps_accepting : Keeps tokens log accepting := by
  refine .bind (fun _ lockstep => .of_ok rfl lockstep) fun lists => ?_
  split
  · exact keeps_lookahead.bind fun token => .pure _
  · exact .pure _

theorem keeps_shouldReduce (rules : List Rule) : Keeps tokens log (shouldReduce rules) :=
  keeps_lookahead.bind fun _ => .bind (fun _ lockstep => .of_ok rfl lockstep) fun _ => .pure _

theorem keeps_shift : Keeps tokens log shift := by
  intro lists lockstep
  cases next : lists.tokens[lists.cursor]? with
  | some token => exact .of_ok (shift_eq next) (lockstep.shifted next)
  | none => exact .of_error (run_bind_error (lookahead_error next)) lockstep

theorem keeps_reduce (rule : Rule) : Keeps tokens log (reduce rule) := by
  intro lists lockstep
  have folds := reduce_eq lists rule
  cases made : rule.action.apply (lastOf rule.rhs.length lists.values) with
  | ok item =>
      rw [made] at folds
      exact .of_ok folds (lockstep.reduced rule item)
  | error fault =>
      rw [made] at folds
      exact .of_error folds (lockstep.popped rule)

theorem keeps_accept : Keeps tokens log accept := by
  intro lists lockstep
  have ends := accept_eq lists
  rcases found : lists.values.head? with _ | (token | tree)
  · rw [found] at ends
    exact .of_error ends lockstep.accepted
  · rw [found] at ends
    exact .of_error ends lockstep.accepted
  · rw [found] at ends
    exact .of_ok ends lockstep.accepted

theorem keeps_turn (rules : List Rule) : Keeps tokens log (turn rules) := by
  refine keeps_accepting.bind fun accepts => ?_
  split
  · exact keeps_accept.bind fun tree => .pure _
  · refine (keeps_shouldReduce rules).bind fun found => ?_
    cases found with
    | some rule => exact (keeps_reduce rule).bind fun _ => .pure _
    | none =>
        refine keeps_lookahead.bind fun token => ?_
        split
        · exact .throw _
        · exact keeps_shift.bind fun _ => .pure _

theorem keeps_run (rules : List Rule) (cap : Nat) : Keeps tokens log (run rules cap) := by
  induction cap with
  | zero => exact keeps_lookahead.bind fun token => .throw _
  | succ cap ih =>
      refine (keeps_turn rules).bind fun ended => ?_
      cases ended with
      | some tree => exact .pure tree
      | none => exact ih

theorem keeps_perform (rules : List Rule) (operation : Operation) :
    Keeps tokens log (perform rules operation) := by
  cases operation with
  | shift => exact keeps_shift.bind fun _ => .pure _
  | reduce rule => exact (keeps_reduce rule).bind fun _ => .pure _
  | run cap => exact (keeps_run rules cap.toNat).bind fun _ => .pure _

end Lockstep

section Mirrors

/-- The two lists show what the one stack shows, and both machines have the same to read. -/
structure Mirrors (tokens : List Token) (lists : TwoStacks) (machine : ShiftReduce) : Prop where
  tokens_eq : lists.tokens = tokens
  symbols_eq : lists.symbols = machine.symbols
  values_eq : lists.values = machine.items
  unread_eq : machine.unread.tokens = tokens.drop lists.cursor
  cursor_le : lists.cursor ≤ tokens.length
  log_eq : lists.log = machine.log

variable {machine : ShiftReduce}

namespace Mirrors

theorem start (tokens : List Token) (log : StepLog) :
    Mirrors tokens (start tokens log) (.start tokens log) :=
  ⟨rfl, rfl, rfl, rfl, Nat.zero_le _, rfl⟩

theorem next_eq (mirrors : Mirrors tokens lists machine) :
    lists.tokens[lists.cursor]? = machine.unread.tokens.head? := by
  rw [mirrors.tokens_eq, mirrors.unread_eq, List.head?_drop]

theorem remaining_eq (mirrors : Mirrors tokens lists machine) :
    lists.remaining = machine.unread.texts := by
  rw [remaining, mirrors.tokens_eq, ← mirrors.unread_eq, machine.unread.texts_eq]

theorem shifted (mirrors : Mirrors tokens lists machine)
    (next : lists.tokens[lists.cursor]? = some token) :
    Mirrors tokens (lists.shifted token) (machine.shifted token) := by
  obtain ⟨below, -⟩ := List.getElem?_eq_some_iff.mp next
  rw [mirrors.tokens_eq] at below
  have unread : (machine.shifted token).unread.tokens = tokens.drop (lists.cursor + 1) := by
    rw [ShiftReduce.tokens_shifted, mirrors.unread_eq, List.tail_drop]
  have symbols : (lists.shifted token).symbols = (machine.shifted token).symbols := by
    rw [ShiftReduce.symbols_shifted, ← mirrors.symbols_eq]
    rfl
  refine ⟨mirrors.tokens_eq, symbols, ?_, unread, below, ?_⟩
  · simp [TwoStacks.shifted, ShiftReduce.items, mirrors.values_eq]
  · change lists.log.record .shift _ (lists.shifted token).symbols _ none =
      machine.log.record .shift _ (machine.shifted token).symbols
        (machine.shifted token).unread.texts none
    rw [mirrors.log_eq, symbols, mirrors.tokens_eq, (machine.shifted token).unread.texts_eq, unread]

theorem popped (mirrors : Mirrors tokens lists machine) (rule : Rule) :
    Mirrors tokens (lists.popped rule) (machine.popped rule) where
  tokens_eq := mirrors.tokens_eq
  symbols_eq := by
    rw [TwoStacks.popped, mirrors.symbols_eq, ShiftReduce.symbols, ShiftReduce.symbolsOf,
      withoutLast_reverse, ← ShiftReduce.map_uncovered]
    rfl
  values_eq := by
    rw [TwoStacks.popped, mirrors.values_eq, ShiftReduce.items, withoutLast_reverse,
      ← ShiftReduce.map_uncovered]
    rfl
  unread_eq := mirrors.unread_eq
  cursor_le := mirrors.cursor_le
  log_eq := mirrors.log_eq

theorem reduced (mirrors : Mirrors tokens lists machine) (rule : Rule) (item : Item) :
    Mirrors tokens (lists.reduced rule item) (machine.reduced rule item) := by
  have popped := mirrors.popped rule
  have symbols : (lists.reduced rule item).symbols = (machine.reduced rule item).symbols := by
    change (lists.popped rule).symbols ++ [rule.lhs] = _
    rw [popped.symbols_eq]
    simp [ShiftReduce.symbols, ShiftReduce.symbolsOf, ShiftReduce.popped]
  refine ⟨mirrors.tokens_eq, symbols, ?_, mirrors.unread_eq, mirrors.cursor_le, ?_⟩
  · change (lists.popped rule).values ++ [item] = _
    rw [popped.values_eq]
    simp [ShiftReduce.items, ShiftReduce.popped]
  · change lists.log.record .reduce _ (lists.reduced rule item).symbols lists.remaining _ =
      machine.log.record .reduce _ (machine.reduced rule item).symbols machine.unread.texts _
    rw [mirrors.log_eq, symbols, mirrors.remaining_eq]

theorem accepted (mirrors : Mirrors tokens lists machine) :
    Mirrors tokens lists.accepted machine.accepted where
  tokens_eq := mirrors.tokens_eq
  symbols_eq := mirrors.symbols_eq
  values_eq := mirrors.values_eq
  unread_eq := mirrors.unread_eq
  cursor_le := mirrors.cursor_le
  log_eq := by
    rw [TwoStacks.accepted, ShiftReduce.accepted, mirrors.log_eq, mirrors.symbols_eq]

/-- The items that a fold hands to the action of its rule. -/
theorem folded_eq (mirrors : Mirrors tokens lists machine) (rule : Rule) :
    lastOf rule.rhs.length lists.values = machine.folded rule := by
  rw [mirrors.values_eq, ShiftReduce.items, lastOf_reverse, ← map_covered]
  rfl

end Mirrors

/-- Both machines go the same way from states that show the same. -/
abbrev Mirrored {α : Type} (tokens : List Token) (run : Run α) (run' : ShiftReduce.Run α) : Prop :=
  PairedRuns (Mirrors tokens) Eq Eq run run'

theorem lookahead_mirrored : Mirrored tokens lookahead ShiftReduce.lookahead := by
  intro lists machine mirrors
  have next := mirrors.next_eq
  cases unread : machine.unread.tokens with
  | nil =>
      rw [unread] at next
      rw [lookahead_error next, ShiftReduce.lookahead, unread]
      exact .error rfl mirrors
  | cons token rest =>
      rw [unread] at next
      rw [lookahead_eq next, ShiftReduce.lookahead_eq unread]
      exact .ok rfl mirrors

theorem accepting_mirrored : Mirrored tokens accepting ShiftReduce.accepting := by
  refine .bind .of_get ?_
  rintro lists ⟨unread, stack, log⟩ mirrors
  have symbols := mirrors.symbols_eq
  match stack with
  | [] =>
      rw [if_neg (by simp [symbols, ShiftReduce.symbols, ShiftReduce.symbolsOf])]
      exact .of_pure rfl
  | [frame] =>
      have lone : lists.symbols = [frame.symbol] := symbols
      cases isExpression : frame.symbol == "E" with
      | true =>
          rw [if_pos (by rw [lone, eq_of_beq isExpression])]
          simp only [isExpression, if_pos]
          exact .bind_same lookahead_mirrored fun token => .of_pure rfl
      | false =>
          rw [if_neg (by simpa [lone] using isExpression)]
          simp only [isExpression]
          exact .of_pure rfl
  | first :: second :: rest =>
      have long : lists.symbols.length = rest.length + 2 := by
        simp [symbols, ShiftReduce.symbols, ShiftReduce.symbolsOf]
      rw [if_neg (by rintro lone; simp [lone] at long)]
      exact .of_pure rfl

theorem matchesEnd_eq (rule : Rule) (machine : ShiftReduce) :
    matchesEnd rule machine.symbols = Grammar.matchesTop rule (machine.stack.map Frame.symbol) := by
  rw [matchesEnd, Grammar.matchesTop, ShiftReduce.symbols, ShiftReduce.symbolsOf, lastOf_reverse,
    List.length_reverse]
  congr 1
  rw [Bool.eq_iff_iff, beq_iff_eq, beq_iff_eq, List.reverse_eq_iff]

theorem shouldReduce_mirrored (rules : List Rule) :
    Mirrored tokens (shouldReduce rules) (ShiftReduce.shouldReduce rules) := by
  refine .bind_same lookahead_mirrored fun token => .bind .of_get ?_
  intro lists machine mirrors
  refine .of_pure ?_
  rw [Grammar.findReduction?, mirrors.symbols_eq]
  simp only [matchesEnd_eq]

theorem accept_mirrored : Mirrored tokens accept ShiftReduce.accept := by
  refine .bind (.of_modify fun lists machine mirrors => mirrors.accepted) fun _ _ _ => ?_
  refine .bind .of_get ?_
  intro lists machine mirrors
  rw [mirrors.values_eq]
  rcases machine.items with _ | ⟨token | tree, rest⟩
  · exact .of_throw rfl
  · exact .of_throw rfl
  · exact .of_pure rfl

theorem shift_mirrored : Mirrored tokens shift ShiftReduce.shift := by
  intro lists machine mirrors
  have next := mirrors.next_eq
  cases unread : machine.unread.tokens with
  | nil =>
      rw [unread] at next
      have starved : ShiftReduce.lookahead machine = .error .outOfRange machine := by
        simp [ShiftReduce.lookahead, unread]
      rw [shift, run_bind_error (lookahead_error next), ShiftReduce.shift, run_bind_error starved]
      exact .error rfl mirrors
  | cons token rest =>
      rw [unread] at next
      rw [shift_eq next, ShiftReduce.shift_eq unread]
      exact .ok rfl (mirrors.shifted next)

theorem reduce_mirrored (rule : Rule) :
    Mirrored tokens (reduce rule) (ShiftReduce.reduce rule) := by
  intro lists machine mirrors
  rw [reduce_eq, ShiftReduce.reduce_eq, mirrors.folded_eq]
  cases rule.action.apply (machine.folded rule) with
  | ok item => exact .ok rfl (mirrors.reduced rule item)
  | error fault => exact .error rfl (mirrors.popped rule)

theorem turn_mirrored (rules : List Rule) :
    Mirrored tokens (turn rules) (ShiftReduce.turn rules) := by
  refine .bind_same accepting_mirrored fun accepts => ?_
  split
  · exact .bind_same accept_mirrored fun tree => .of_pure rfl
  · refine .bind_same (shouldReduce_mirrored rules) fun found => ?_
    cases found with
    | some rule => exact .bind_same (reduce_mirrored rule) fun _ => .of_pure rfl
    | none =>
        refine .bind_same lookahead_mirrored fun token => ?_
        split
        · exact .of_throw rfl
        · exact .bind_same shift_mirrored fun _ => .of_pure rfl

theorem run_mirrored (rules : List Rule) (cap : Nat) :
    Mirrored tokens (run rules cap) (ShiftReduce.run rules cap) := by
  induction cap with
  | zero => exact .bind_same lookahead_mirrored fun token => .of_throw rfl
  | succ cap ih =>
      refine .bind_same (turn_mirrored rules) fun ended => ?_
      cases ended with
      | some tree => exact .of_pure rfl
      | none => exact ih

theorem perform_mirrored (rules : List Rule) (operation : Operation) :
    Mirrored tokens (perform rules operation) (ShiftReduce.perform rules operation) := by
  cases operation with
  | shift => exact .bind_same shift_mirrored fun _ => .of_pure rfl
  | reduce rule => exact .bind_same (reduce_mirrored rule) fun _ => .of_pure rfl
  | run cap => exact .bind_same (run_mirrored rules cap.toNat) fun tree => .of_pure rfl

end Mirrors

section Driving

variable {log : StepLog} {machine : ShiftReduce}

theorem Lockstep.driven (lockstep : Lockstep tokens log lists) (operations : List Operation) :
    Lockstep tokens log (driven (perform rules) operations lists) := by
  induction operations generalizing lists with
  | nil => exact lockstep
  | cons operation rest ih =>
      exact ih ((keeps_perform rules operation lists lockstep).stateOf fun _ _ kept => kept)

theorem Mirrors.driven (mirrors : Mirrors tokens lists machine) (operations : List Operation) :
    Mirrors tokens (driven (perform rules) operations lists)
      (driven (ShiftReduce.perform rules) operations machine) := by
  induction operations generalizing lists machine with
  | nil => exact mirrors
  | cons operation rest ih =>
      exact ih (perform_mirrored rules operation lists machine mirrors).stateOf

theorem Mirrors.cursor_eq (mirrors : Mirrors tokens lists machine) :
    lists.cursor = machine.cursor tokens := by
  have below := mirrors.cursor_le
  rw [ShiftReduce.cursor, mirrors.unread_eq, List.length_drop]
  omega

end Driving

end TwoStacks

/-- However the machine is driven, with any tokens and any rules, by shifts, folds and runs in any
order of which each may fail midway, its two lists are equally long, it has read as many tokens as
the shifts that it noted, none behind the last one, and its steps are numbered without gaps. The
machine with one stack, driven alike, shows the same, and every further call comes to the same
there. -/
theorem stacks_stay_in_lockstep (rules : List Rule) (tokens : List Token) {log : StepLog}
    (numbered : Numbered log.toList) (operations : List Operation) :
    let lists := driven (TwoStacks.perform rules) operations (.start tokens log)
    let machine := driven (ShiftReduce.perform rules) operations (.start tokens log)
    (lists.symbols.length = lists.values.length ∧ lists.cursor ≤ tokens.length ∧
        countActions lists.log.toList .shift = countActions log.toList .shift + lists.cursor ∧
        Numbered lists.log.toList) ∧
      (lists.symbols = machine.symbols ∧ lists.values = machine.items ∧
        lists.cursor = machine.cursor tokens ∧ lists.log = machine.log) ∧
      ∀ operation, PairedResults (TwoStacks.Mirrors tokens) Eq Eq
        (TwoStacks.perform rules operation lists)
        (ShiftReduce.perform rules operation machine) := by
  intro lists machine
  have lockstep : TwoStacks.Lockstep tokens log lists :=
    (TwoStacks.Lockstep.start tokens numbered).driven operations
  have mirrors : TwoStacks.Mirrors tokens lists machine :=
    (TwoStacks.Mirrors.start tokens log).driven operations
  refine ⟨⟨lockstep.lengths, lockstep.cursor_le, lockstep.shifts, lockstep.numbered⟩, ?_, ?_⟩
  · exact ⟨mirrors.symbols_eq, mirrors.values_eq, mirrors.cursor_eq, mirrors.log_eq⟩
  · intro operation
    exact TwoStacks.perform_mirrored rules operation lists machine mirrors

/-- Calls on the tokens of `2`: a fold that is wider than the stack, a shift behind the last token,
a fold by an empty right-hand side whose action fails, and a run. -/
def roughDriving : List Operation :=
  [.shift, .reduce ⟨"X", ["a", "b", "c"], .first⟩, .shift, .shift, .reduce ⟨"Y", [], .binary "+"⟩,
    .run 3]

theorem roughDriving_keeps_lockstep :
    let lists := driven (TwoStacks.perform Rule.table) roughDriving
      (.start ShiftReduce.loneTwo .empty)
    lists.symbols.length = lists.values.length ∧ lists.cursor = 2 ∧
      countActions lists.log.toList .shift = 2 ∧ lists.log.toList.length = 3 ∧
      Numbered lists.log.toList := by
  intro lists
  have counts : lists.cursor = 2 ∧ lists.log.toList.length = 3 := by decide +kernel
  obtain ⟨⟨lengths, -, shifts, numbered⟩, -⟩ :=
    stacks_stay_in_lockstep Rule.table ShiftReduce.loneTwo StepLog.numbered_empty roughDriving
  refine ⟨lengths, counts.1, ?_, counts.2, numbered⟩
  rw [shifts]
  exact counts.1

end Reckon
