import Reckon.Proofs.ShiftReduce.Language
import Reckon.Proofs.StepLogs

/-!
# The log of the machine is an audit

The log of a run can be replayed without the machine: each step follows from the step before it, by
pushing one symbol for the next token or by folding the top of the stack as a rule says. The
invariant is that the last step shows the stack and the unread tokens that the machine has now. It
holds for any rule table and for tokens of any kind.
-/

set_option autoImplicit false

namespace Reckon

/-- A step that pushes a token: its own symbol, or the mark of a sign that stands before an
operand. -/
structure Step.Pushes (token : Token) (symbol : Text) (step previous : Step) : Prop where
  action : step.action = .shift
  remaining : previous.remaining = token.shown :: step.remaining
  stack : step.stack = previous.stack ++ [symbol]
  symbol_eq : symbol = Grammar.shiftSymbol token previous.stack.getLast?
  symbol_cases : symbol = token.symbol ∨ (token.symbol = "+" ∧ symbol = "u+") ∨
    (token.symbol = "-" ∧ symbol = "u-")

/-- A step that folds the top of the stack by a rule and leaves what is below. -/
structure Step.Folds (rule : Rule) (below : List Text) (step previous : Step) : Prop where
  action : step.action = .reduce
  label : step.rule = some rule.label
  before : previous.stack = below ++ rule.rhs
  after : step.stack = below ++ [rule.lhs]
  remaining : step.remaining = previous.remaining

/-- What a step between the first and the last may do to the step before it. -/
inductive Step.Follows (rules : List Rule) (tokens : List Token) (step previous : Step) :
    Prop where
  | pushes {seen rest : List Token} {token : Token} {symbol : Text} :
      tokens = seen ++ token :: rest → step.remaining = rest.map Token.shown →
      step.Pushes token symbol previous → Follows rules tokens step previous
  | folds {rule : Rule} {below : List Text} :
      rule ∈ rules → step.Folds rule below previous → Follows rules tokens step previous

theorem Step.Follows.action {rules : List Rule} {tokens : List Token} {previous step : Step}
    (follows : step.Follows rules tokens previous) :
    step.action = .shift ∨ step.action = .reduce := by
  cases follows with
  | pushes _ _ pushes => exact .inl pushes.action
  | folds _ folds => exact .inr folds.action

theorem Grammar.shiftSymbol_cases (token : Token) (top? : Option Text) :
    shiftSymbol token top? = token.symbol ∨
      (token.symbol = "+" ∧ shiftSymbol token top? = "u+") ∨
      (token.symbol = "-" ∧ shiftSymbol token top? = "u-") := by
  unfold shiftSymbol
  split
  case isFalse _ => exact .inl rfl
  case isTrue marked =>
    obtain ⟨sign, -⟩ := Bool.and_eq_true_iff.mp marked
    simp only [isSignSymbol, Bool.or_eq_true, beq_iff_eq] at sign
    rcases sign with plus | minus
    · exact .inr (.inl ⟨plus, by simp [plus]⟩)
    · exact .inr (.inr ⟨minus, by simp [minus]⟩)

namespace ShiftReduce

open Grammar (checkNesting maxNesting)

variable {rules : List Rule} {tokens : List Token} {machine next : ShiftReduce}

theorem getLast?_symbols (machine : ShiftReduce) :
    machine.symbols.getLast? = machine.stack.head?.map Frame.symbol := by
  rw [symbols, symbolsOf, List.getLast?_reverse, List.head?_map]

theorem symbols_shifted (machine : ShiftReduce) (token : Token) :
    (machine.shifted token).symbols =
      machine.symbols ++ [Grammar.shiftSymbol token machine.symbols.getLast?] := by
  rw [getLast?_symbols, symbols, symbolsOf, stack_shifted, List.map_cons, List.reverse_cons]
  rfl

theorem map_uncovered {α β : Type} (change : α → β) (width : Nat) (stack : List α) :
    (uncovered width stack).map change = uncovered width (stack.map change) := by
  unfold uncovered
  split
  · rfl
  · exact List.map_drop

/-- Folding by a rule that matches replaces its right-hand side by its left-hand side. -/
theorem symbols_reduced {token : Token} {rule : Rule}
    (found : machine.ruleAt? rules token = some rule) (item : Item) :
    ∃ below, machine.symbols = below ++ rule.rhs ∧
      (machine.reduced rule item).symbols = below ++ [rule.lhs] := by
  obtain ⟨-, matched⟩ := Grammar.findReduction?_matches found
  refine ⟨symbolsOf (uncovered rule.rhs.length machine.stack), ?_, ?_⟩
  · rw [symbolsOf, map_uncovered, symbols, symbolsOf]
    nth_rewrite 1 [matched]
    rw [List.reverse_append, List.reverse_reverse]
  · rw [symbols, stack_reduced, symbolsOf, List.map_cons, List.reverse_cons]
    rfl

def shifts (machine : ShiftReduce) : Nat :=
  countActions machine.log.toList .shift

def reductions (machine : ShiftReduce) : Nat :=
  countActions machine.log.toList .reduce

@[simp] theorem shifts_shifted (machine : ShiftReduce) (token : Token) :
    (machine.shifted token).shifts = machine.shifts + 1 :=
  StepLog.countActions_record ..

@[simp] theorem shifts_reduced (machine : ShiftReduce) (rule : Rule) (item : Item) :
    (machine.reduced rule item).shifts = machine.shifts :=
  StepLog.countActions_record ..

@[simp] theorem reductions_shifted (machine : ShiftReduce) (token : Token) :
    (machine.shifted token).reductions = machine.reductions :=
  StepLog.countActions_record ..

@[simp] theorem reductions_reduced (machine : ShiftReduce) (rule : Rule) (item : Item) :
    (machine.reduced rule item).reductions = machine.reductions + 1 :=
  StepLog.countActions_record ..

/-- The log of a machine that has been at work on a stream: every step but the first follows from
the step before it, and the last one shows the machine as it is. -/
structure Audited (rules : List Rule) (tokens : List Token) (machine : ShiftReduce) : Prop where
  numbered : Numbered machine.log.toList
  opened : ∃ opening moves, machine.log.toList = opening :: moves ∧ opening.action = .process ∧
    opening.stack = [] ∧ opening.remaining = tokens.map Token.shown
  chain : machine.log.toList.IsChain fun previous step => step.Follows rules tokens previous
  last : ∃ step, machine.log.toList.getLast? = some step ∧ step.stack = machine.symbols ∧
    step.remaining = machine.unread.texts
  unread : ∃ seen, tokens = seen ++ machine.unread.tokens ∧
    (∀ token ∈ seen, token.isEnd = false) ∧ machine.shifts = seen.length

namespace Audited

theorem opening (rules : List Rule) (tokens : List Token) :
    Audited rules tokens (opening tokens) where
  numbered := StepLog.numbered_record StepLog.numbered_empty _ _ _ _ _
  opened := ⟨_, [], rfl, rfl, rfl, rfl⟩
  chain := .singleton _
  last := ⟨_, rfl, rfl, rfl⟩
  unread := ⟨[], rfl, by simp, rfl⟩

theorem recorded (audited : Audited rules tokens machine) {action : StepAction}
    {description : Text} {rule : Option Text}
    (log : next.log = machine.log.record action description next.symbols next.unread.texts rule)
    (follows : ∀ previous : Step, previous.stack = machine.symbols →
      previous.remaining = machine.unread.texts →
      (machine.log.next action description next.symbols next.unread.texts rule).Follows rules tokens
        previous)
    (unread : ∃ seen, tokens = seen ++ next.unread.tokens ∧
      (∀ token ∈ seen, token.isEnd = false) ∧ next.shifts = seen.length) :
    Audited rules tokens next where
  numbered := by
    rw [log]
    exact StepLog.numbered_record audited.numbered _ _ _ _ _
  opened := by
    obtain ⟨opening, moves, shape, isOpening⟩ := audited.opened
    refine ⟨opening, moves ++ [machine.log.next action description next.symbols
      next.unread.texts rule], ?_, isOpening⟩
    rw [log, StepLog.toList_record, shape, List.cons_append]
  chain := by
    obtain ⟨last, isLast, stack, remaining⟩ := audited.last
    rw [log, StepLog.toList_record]
    refine audited.chain.append (.singleton _) ?_
    intro previous isPrevious step isStep
    obtain rfl := Option.some.inj (isLast.symm.trans isPrevious)
    obtain rfl := Option.some.inj isStep
    exact follows last stack remaining
  last := by
    refine ⟨machine.log.next action description next.symbols next.unread.texts rule, ?_, rfl, rfl⟩
    rw [log, StepLog.toList_record, List.getLast?_concat]
  unread := unread

theorem shifted {token : Token} {rest : List Token} (audited : Audited rules tokens machine)
    (unread : machine.unread.tokens = token :: rest) (notLast : token.isEnd = false) :
    Audited rules tokens (machine.shifted token) := by
  obtain ⟨seen, shape, others, shifts⟩ := audited.unread
  rw [unread] at shape
  have texts : machine.unread.texts = token.shown :: rest.map Token.shown := by
    rw [machine.unread.texts_eq, unread, List.map_cons]
  have behind : (machine.shifted token).unread.texts = rest.map Token.shown := by
    rw [(machine.shifted token).unread.texts_eq, tokens_shifted, unread, List.tail_cons]
  have log : (machine.shifted token).log =
      machine.log.record .shift ("Shift token: " ++ token.text) (machine.shifted token).symbols
        (machine.shifted token).unread.texts none := rfl
  refine audited.recorded log ?_ ?_
  · intro previous stack remaining
    refine .pushes shape behind ⟨rfl, ?_, ?_, rfl, Grammar.shiftSymbol_cases token _⟩
    · rw [remaining, texts]
      exact congrArg (token.shown :: ·) behind.symm
    · rw [stack]
      exact symbols_shifted machine token
  · refine ⟨seen ++ [token], ?_, ?_, ?_⟩
    · rw [tokens_shifted, unread, List.tail_cons, shape, List.append_assoc, List.singleton_append]
    · intro other member
      rcases List.mem_append.mp member with inSeen | isToken
      · exact others other inSeen
      · obtain rfl := List.mem_singleton.mp isToken
        exact notLast
    · rw [shifts_shifted, shifts, List.length_append, List.length_singleton]

theorem reduced {token : Token} {rule : Rule} (audited : Audited rules tokens machine)
    (found : machine.ruleAt? rules token = some rule) (item : Item) :
    Audited rules tokens (machine.reduced rule item) := by
  obtain ⟨seen, shape, others, shifts⟩ := audited.unread
  obtain ⟨below, before, after⟩ := symbols_reduced found item
  have member := (Grammar.findReduction?_matches found).1
  have log : (machine.reduced rule item).log =
      machine.log.record .reduce ("Reduce by rule: " ++ rule.label)
        (machine.reduced rule item).symbols (machine.reduced rule item).unread.texts
        (some rule.label) := rfl
  refine audited.recorded log ?_ ?_
  · intro previous stack remaining
    exact .folds member ⟨rfl, rfl, stack.trans before, after, remaining.symm⟩
  · refine ⟨seen, shape, others, ?_⟩
    rw [shifts_reduced, shifts]

theorem turned (audited : Audited rules tokens machine) (turned : Turned rules machine next) :
    Audited rules tokens next := by
  cases turned with
  | reduced _ _ found _ => exact audited.reduced found _
  | shifted unread _ _ notLast => exact audited.shifted unread notLast

theorem reaches {turns : Nat} (audited : Audited rules tokens machine)
    (reaches : Reaches rules turns machine next) : Audited rules tokens next := by
  induction reaches with
  | refl => exact audited
  | turn turned _ ih => exact ih (audited.turned turned)

end Audited

/-- The log of an accepted stream: a first step, the moves of the machine, and a last step. -/
structure IsAudit (rules : List Rule) (tokens : List Token) (opening : Step) (moves : List Step)
    (closing : Step) : Prop where
  opening_action : opening.action = .process
  opening_stack : opening.stack = []
  opening_remaining : opening.remaining = tokens.map Token.shown
  follows : (opening :: moves).IsChain fun previous step => step.Follows rules tokens previous
  moves_action : ∀ move ∈ moves, move.action = .shift ∨ move.action = .reduce
  shifts : countActions moves .shift = (Token.withoutEnd tokens).length
  closing_action : closing.action = .accept
  closing_stack : closing.stack = ["E"]
  before_closing : ∃ last, (opening :: moves).getLast? = some last ∧ last.stack = closing.stack ∧
    last.remaining = [endMark]

theorem exists_of_parseWith_ok {cap? : Option Int} {parsed : Parsed}
    (accepted : parseWith rules tokens cap? = .ok parsed) :
    Token.checkStream tokens = .ok () ∧ checkNesting tokens maxNesting = .ok () ∧
      ∃ after, run rules (allowance tokens cap?) (opening tokens) = .ok parsed.tree after ∧
        parsed.steps = after.log.toList := by
  unfold parseWith at accepted
  obtain ⟨_, stream, accepted⟩ := except_bind_ok accepted
  obtain ⟨_, nested, accepted⟩ := except_bind_ok accepted
  refine ⟨stream, nested, ?_⟩
  unfold allowance opening
  dsimp only at accepted
  split at accepted
  case h_1 tree after done =>
    cases accepted
    exact ⟨after, done, rfl⟩
  case h_2 => cases accepted

theorem Audited.isAudit (audited : Audited rules tokens machine)
    (stream : Token.checkStream tokens = .ok ()) {last : Token} {rest : List Token} {item : Item}
    (unread : machine.unread.tokens = last :: rest) (isLast : last.isEnd = true)
    (single : machine.stack = [⟨"E", item⟩]) :
    ∃ opening moves closing, machine.accepted.log.toList = opening :: (moves ++ [closing]) ∧
      Numbered machine.accepted.log.toList ∧ IsAudit rules tokens opening moves closing := by
  obtain ⟨opening, moves, log, openingAction, openingStack, openingRemaining⟩ := audited.opened
  obtain ⟨lastStep, isLastStep, stack, remaining⟩ := audited.last
  obtain ⟨seen, shape, -, shifts⟩ := audited.unread
  obtain ⟨front, final, tokens_eq, -, others, isFinal⟩ := Token.exists_of_checkStream stream
  rw [unread] at shape
  obtain ⟨rfl, rfl, rfl⟩ := Token.eq_of_split_at_end (tokens_eq.symm.trans shape) others isLast
  have chain := audited.chain
  rw [ShiftReduce.shifts, log] at shifts
  rw [log] at chain isLastStep
  have noShift : countActions (opening :: moves) .shift = countActions moves .shift := by
    simp [countActions, openingAction]
  have symbols : machine.symbols = ["E"] := by
    rw [ShiftReduce.symbols, single]
    rfl
  refine ⟨opening, moves, machine.log.next .accept "Accept: Parsing complete" machine.symbols []
    none, ?_, StepLog.numbered_record audited.numbered _ _ _ _ _, ?_⟩
  · change (machine.log.record ..).toList = _
    rw [StepLog.toList_record, log, List.cons_append]
  · refine ⟨openingAction, openingStack, openingRemaining, chain, ?_, ?_, rfl, symbols, ?_⟩
    · intro move member
      obtain ⟨_, follows⟩ := exists_of_isChain_cons chain member
      exact follows.action
    · have kept : Token.withoutEnd tokens = front := by
        rw [tokens_eq, Token.withoutEnd, List.filter_append, List.filter_singleton, isFinal]
        simpa using others
      rw [kept, ← noShift, shifts]
    · refine ⟨lastStep, isLastStep, stack, ?_⟩
      rw [remaining, machine.unread.texts_eq, unread, List.map_singleton, Token.shown,
        if_pos (Token.isEnd_iff.mp isFinal)]

/-- The log of an accepted stream is an audit: its steps are numbered, it opens with the only step
of its kind, every move follows from the step before it by pushing the next token or by folding the
top of the stack as a rule of the table says, and it closes with a lone expression when only the
end of input is left. -/
theorem accepted_log_is_an_audit {cap? : Option Int} {parsed : Parsed}
    (accepted : parseWith rules tokens cap? = .ok parsed) :
    ∃ opening moves closing, parsed.steps = opening :: (moves ++ [closing]) ∧
      Numbered parsed.steps ∧ IsAudit rules tokens opening moves closing := by
  obtain ⟨stream, -, after, done, steps⟩ := exists_of_parseWith_ok accepted
  obtain ⟨turns, last, -, reaches, accepts⟩ := exists_of_run_ok done
  obtain ⟨token, rest, unread, isLast, single, rfl⟩ := exists_of_turn_accepts accepts
  rw [steps]
  exact ((Audited.opening rules tokens).reaches reaches).isAudit stream unread isLast single

/-- The tokens of `-(1+2)*3`. -/
def signedProduct : List Token :=
  [⟨.operator, "-", 0⟩, ⟨.leftParenthesis, "(", 1⟩, ⟨.number, "1", 2⟩, ⟨.operator, "+", 3⟩,
    ⟨.number, "2", 4⟩, ⟨.rightParenthesis, ")", 5⟩, ⟨.operator, "*", 6⟩, ⟨.number, "3", 7⟩,
    ⟨.endOfInput, "", 8⟩]

theorem signedProduct_audit :
    ∃ parsed opening moves closing, parse signedProduct none = .ok parsed ∧
      parsed.steps = opening :: (moves ++ [closing]) ∧ Numbered parsed.steps ∧
      IsAudit Rule.table signedProduct opening moves closing := by
  have accepts : (parse signedProduct none).isOk = true := by decide +kernel
  obtain ⟨parsed, accepted⟩ := exists_of_isOk accepts
  obtain ⟨opening, moves, closing, audit⟩ := accepted_log_is_an_audit accepted
  exact ⟨parsed, opening, moves, closing, accepted, audit⟩

end ShiftReduce

end Reckon
