import Reckon.Proofs.ShiftReduce.Soundness

/-!
# Completeness of the machine

From a stack on which a nonterminal is wanted, the machine follows any derivation from it whose
tokens come next: it arrives with the meaning of the derivation on top of the same stack, and has
folded the productions of the derivation in their order, or it fails at the first numeral beyond the
finite doubles. The induction is on the derivation, and the turns that the machine takes are counted
along with it.
-/

set_option autoImplicit false

namespace Reckon

namespace ShiftReduce

open Grammar (canReduce findReduction?)

variable {machine next : ShiftReduce} {token : Token} {rest : List Token}

/-- What was folded so far. -/
def built (machine : ShiftReduce) : List Construction :=
  constructions Step.rule machine.log.toList

@[simp] theorem built_shifted (machine : ShiftReduce) (token : Token) :
    (machine.shifted token).built = machine.built :=
  StepLog.constructions_record_of_ne Step.rule machine.log (by decide) _ _ _ _

theorem built_reduced (machine : ShiftReduce) (rule : Rule) (item : Item) :
    (machine.reduced rule item).built =
      machine.built ++ [⟨some rule.label, machine.unread.tokens.map Token.shown⟩] := by
  rw [← machine.unread.texts_eq]
  exact StepLog.constructions_record_reduce Step.rule machine.log _ _ _ _

theorem acceptsAt_of_lexeme (lexeme : token.IsLexeme) : machine.acceptsAt token = false := by
  rw [Bool.eq_false_iff]
  intro accepts
  obtain ⟨_, _, isLast⟩ := acceptsAt_eq_true_iff.mp accepts
  simp [lexeme.isEnd_eq_false] at isLast

theorem acceptsAt_of_top {frame : Frame} {below : List Frame}
    (top : machine.stack = frame :: below) (other : frame.symbol ≠ "E") :
    machine.acceptsAt token = false := by
  rw [Bool.eq_false_iff]
  intro accepts
  obtain ⟨_, single, _⟩ := acceptsAt_eq_true_iff.mp accepts
  obtain ⟨rfl, -⟩ := List.cons.inj (top.symm.trans single)
  exact other rfl

theorem turned_shift (unread : machine.unread.tokens = token :: rest) (lexeme : token.IsLexeme)
    (noRule : findReduction? Rule.table (machine.stack.map Frame.symbol) token.symbol = none) :
    Turned Rule.table machine (machine.shifted token) :=
  .shifted unread (acceptsAt_of_lexeme lexeme) noRule lexeme.isEnd_eq_false

theorem Wants.noRule {stack lookahead : _} (wants : Wants .factor stack) :
    findReduction? Rule.table stack lookahead = none := by
  cases stack with
  | nil => exact Grammar.findReduction?_nil
  | cons symbol below =>
      have context := wants symbol rfl
      exact Grammar.findReduction?_of_context (by simpa [contexts] using context)

theorem Wants.shiftSymbol_sign {stack : List Frame} (wants : Wants .factor (stack.map Frame.symbol))
    (sign : token.IsAdditive) :
    Grammar.shiftSymbol token (stack.head?.map Frame.symbol) = "u" ++ token.text := by
  rw [shiftSymbol_additive sign, if_pos]
  cases stack with
  | nil => rfl
  | cons frame below =>
      have context := wants frame.symbol rfl
      simpa [contexts] using context

theorem symbol_ne_expression (nonterminal : Nonterminal) (other : nonterminal ≠ .expression) :
    nonterminal.symbol ≠ "E" :=
  Nonterminal.symbol_injective.ne other

/-- The machine comes to an outcome in so many turns, with a symbol for it on top of its stack and
the given constructions made on the way. -/
def Comes (machine : ShiftReduce) (turns : Nat) (symbol : Text) (outcome : Except Fault (Tree Text))
    (rest : List Token) (built : List Construction) : Prop :=
  match outcome with
  | .ok tree => ∃ after, Reaches Rule.table turns machine after ∧
    after.stack = ⟨symbol, .node tree⟩ :: machine.stack ∧ after.unread.tokens = rest ∧
    after.built = machine.built ++ built
  | .error fault => ∃ fewer last after, Reaches Rule.table fewer machine last ∧
    turn Rule.table last = .error fault after

/-- A fault that is met on the way is what the whole way comes to. -/
theorem Comes.error_after {fewer turns total : Nat} {symbol wanted : Text} {fault : Fault}
    {later : List Token} {built wantedBuilt : List Construction}
    (reaches : Reaches Rule.table fewer machine next)
    (comes : Comes next turns symbol (.error fault) rest built) :
    Comes machine total wanted (.error fault) later wantedBuilt := by
  obtain ⟨more, last, after, reachesLast, fails⟩ := comes
  exact ⟨fewer + more, last, after, reaches.trans reachesLast, fails⟩

/-- In front of a token that may follow it, a derivation is folded to its nonterminal. -/
def Follows {nonterminal : Nonterminal} (derivation : Derivation nonterminal) : Prop :=
  ∀ (machine : ShiftReduce) (token : Token) (rest : List Token),
    machine.unread.tokens = derivation.tokens ++ token :: rest →
    Wants nonterminal (machine.stack.map Frame.symbol) →
    canReduce nonterminal.symbol token.symbol = true →
    Comes machine derivation.turns nonterminal.symbol derivation.outcome (token :: rest)
      (derivation.postorder ((token :: rest).map Token.shown))

theorem reaches_reduced {rule : Rule} {frame : Frame} {below : List Frame} {item : Item}
    (unread : machine.unread.tokens = token :: rest) (top : machine.stack = frame :: below)
    (other : frame.symbol ≠ "E")
    (found : findReduction? Rule.table (machine.stack.map Frame.symbol) token.symbol = some rule)
    (made : rule.action.apply (machine.folded rule) = .ok item) :
    Reaches Rule.table 1 machine (machine.reduced rule item) :=
  .single (.reduced unread (acceptsAt_of_top top other) found made)

theorem follows_numeral {numeral : Token} (isNumeral : numeral.IsNumeral) :
    Follows (.numeral numeral isNumeral) := by
  intro machine token rest unread wants permitted
  have shifts := turned_shift unread (.numeral isNumeral) wants.noRule
  have symbol : Grammar.shiftSymbol numeral (machine.stack.head?.map Frame.symbol) = "NUMBER" := by
    rw [shiftSymbol_of_not_sign] <;> simp [isNumeral.symbol, Grammar.isSignSymbol]
  have stack : (machine.shifted numeral).stack =
      ⟨"NUMBER", .token numeral⟩ :: machine.stack := by rw [stack_shifted, symbol]
  have remaining : (machine.shifted numeral).unread.tokens = token :: rest := by
    simp [unread, Derivation.tokens]
  have found : findReduction? Rule.table ((machine.shifted numeral).stack.map Frame.symbol)
      token.symbol = some ⟨"F", ["NUMBER"], .number⟩ := by
    rw [stack]
    exact Grammar.findReduction?_numeral permitted
  have folded : (machine.shifted numeral).folded ⟨"F", ["NUMBER"], .number⟩ =
      [.token numeral] := by simp [ShiftReduce.folded, covered]
  rw [Derivation.outcome]
  cases made : numeral.number with
  | ok tree =>
      have applied : Action.number.apply [.token numeral] = .ok (.node tree) := by
        rw [apply_number, made]
        rfl
      have folds := reaches_reduced remaining stack (by simp) found (folded ▸ applied)
      have label : Rule.label ⟨"F", ["NUMBER"], .number⟩ = "F → NUMBER" := by decide
      refine ⟨_, .turn shifts folds, ?_, remaining, ?_⟩
      · simp [uncovered, Nonterminal.symbol]
      · rw [built_reduced, label, remaining, built_shifted, Derivation.postorder]
  | error fault =>
      have fails := turn_of_rule remaining (acceptsAt_of_top stack (by simp)) found
      rw [folded, apply_number, made] at fails
      exact ⟨1, _, _, .single shifts, fails⟩

theorem follows_group {opening closing : Token} (opens : opening.IsOpening)
    (closes : closing.IsClosing) {inner : Derivation .expression} (follows : Follows inner) :
    Follows (.group opening closing opens closes inner) := by
  intro machine token rest unread wants permitted
  simp only [Derivation.tokens, List.cons_append, List.append_assoc, List.nil_append] at unread
  have shifts := turned_shift unread (.opening opens) wants.noRule
  have symbol : Grammar.shiftSymbol opening (machine.stack.head?.map Frame.symbol) = "(" := by
    rw [shiftSymbol_of_not_sign] <;> simp [opens.symbol, Grammar.isSignSymbol]
  have stack : (machine.shifted opening).stack =
      ⟨"(", .token opening⟩ :: machine.stack := by rw [stack_shifted, symbol]
  have remaining : (machine.shifted opening).unread.tokens =
      inner.tokens ++ closing :: token :: rest := by simp [unread]
  have inGroup : ("(" : Text) ∈ contexts .expression := by decide
  have wantsInner : Wants .expression ((machine.shifted opening).stack.map Frame.symbol) := by
    rw [stack]
    exact .cons inGroup
  -- Above the parenthesis nothing below it matters until the inner expression is complete.
  have comes := follows (machine.shifted opening) closing (token :: rest) remaining
    wantsInner (by rw [closes.symbol]; decide)
  rw [Derivation.outcome]
  cases outcome : inner.outcome with
  | error fault =>
      rw [outcome] at comes
      exact comes.error_after (.single shifts)
  | ok tree =>
      rw [outcome] at comes
      obtain ⟨middle, reaches, middleStack, middleUnread, middleBuilt⟩ := comes
      rw [stack] at middleStack
      have closingShifts := turned_shift middleUnread (.closing closes) (by
        rw [middleStack]
        exact Grammar.findReduction?_expression)
      have closingSymbol : Grammar.shiftSymbol closing (middle.stack.head?.map Frame.symbol) =
          ")" := by rw [shiftSymbol_of_not_sign] <;> simp [closes.symbol, Grammar.isSignSymbol]
      have closedStack : (middle.shifted closing).stack =
          ⟨")", .token closing⟩ :: ⟨"E", .node tree⟩ :: ⟨"(", .token opening⟩ :: machine.stack := by
        rw [stack_shifted, closingSymbol, middleStack]
        rfl
      have closedUnread : (middle.shifted closing).unread.tokens = token :: rest := by
        simp [middleUnread]
      have found : findReduction? Rule.table ((middle.shifted closing).stack.map Frame.symbol)
          token.symbol = some ⟨"F", ["(", "E", ")"], .group⟩ := by
        rw [closedStack]
        exact Grammar.findReduction?_group permitted
      have made : Action.group.apply
          ((middle.shifted closing).folded ⟨"F", ["(", "E", ")"], .group⟩) = .ok (.node tree) := by
        rw [ShiftReduce.folded, closedStack]
        rfl
      have folds := reaches_reduced closedUnread closedStack (by simp) found made
      have label : Rule.label ⟨"F", ["(", "E", ")"], .group⟩ = "F → ( E )" := by decide
      refine ⟨_, ((Reaches.single shifts).trans reaches).trans (.turn closingShifts folds), ?_,
        closedUnread, ?_⟩
      · rw [stack_reduced, closedStack]
        rfl
      · rw [built_reduced, label, closedUnread, built_shifted, middleBuilt, built_shifted,
          Derivation.postorder, List.append_assoc, List.map_cons]

theorem follows_signed {sign : Token} (isSign : sign.IsAdditive) {operand : Derivation .factor}
    (follows : Follows operand) : Follows (.signed sign isSign operand) := by
  intro machine token rest unread wants permitted
  have shifts := turned_shift unread (.additive isSign) wants.noRule
  have stack : (machine.shifted sign).stack =
      ⟨"u" ++ sign.text, .token sign⟩ :: machine.stack := by
    rw [stack_shifted, wants.shiftSymbol_sign isSign]
  have remaining : (machine.shifted sign).unread.tokens = operand.tokens ++ token :: rest := by
    simp [unread, Derivation.tokens]
  have behindSign : ("u" ++ sign.text : Text) ∈ contexts .factor := by
    rcases isSign.text with plus | minus
    · rw [plus, marked_signs.1]
      decide
    · rw [minus, marked_signs.2]
      decide
  have wantsOperand : Wants .factor ((machine.shifted sign).stack.map Frame.symbol) := by
    rw [stack]
    exact .cons behindSign
  have comes := follows (machine.shifted sign) token rest remaining wantsOperand permitted
  rw [Derivation.outcome]
  cases outcome : operand.outcome with
  | error fault =>
      rw [outcome] at comes
      exact comes.error_after (.single shifts)
  | ok tree =>
      rw [outcome] at comes
      obtain ⟨middle, reaches, middleStack, middleUnread, middleBuilt⟩ := comes
      rw [stack] at middleStack
      have found : findReduction? Rule.table (middle.stack.map Frame.symbol) token.symbol =
          some ⟨"F", ["u" ++ sign.text, "F"], .unary sign.text⟩ := by
        rw [middleStack]
        exact Grammar.findReduction?_signed isSign.text permitted
      have made : (Action.unary sign.text).apply
          (middle.folded ⟨"F", ["u" ++ sign.text, "F"], .unary sign.text⟩) =
            .ok (.node (.unary sign.text tree)) := by
        rw [ShiftReduce.folded, middleStack]
        rfl
      have folds := reaches_reduced middleUnread middleStack
        (symbol_ne_expression .factor (by decide)) found made
      have label : Rule.label ⟨"F", ["u" ++ sign.text, "F"], .unary sign.text⟩ =
          "F → u" ++ sign.text ++ " F" := by
        rcases isSign.text with plus | minus <;> simp only [*] <;> decide
      refine ⟨_, ((Reaches.single shifts).trans reaches).trans folds, ?_, middleUnread, ?_⟩
      · rw [stack_reduced, middleStack]
        rfl
      · rw [built_reduced, label, middleUnread, middleBuilt, built_shifted, Derivation.postorder,
          List.append_assoc]

theorem follows_only (level : Level) {operand : Derivation level.operand}
    (follows : Follows operand) : Follows (level.only operand) := by
  intro machine token rest unread wants permitted
  rw [level.tokens_only] at unread
  have comes := follows machine token rest unread (level.wants_operand wants)
    (level.follows_operand permitted)
  rw [level.outcome_only, level.turns_only]
  cases outcome : operand.outcome with
  | error fault =>
      rw [outcome] at comes
      exact comes
  | ok tree =>
      rw [outcome] at comes
      obtain ⟨middle, reaches, middleStack, middleUnread, middleBuilt⟩ := comes
      have found : findReduction? Rule.table (middle.stack.map Frame.symbol) token.symbol =
          some level.onlyRule := by
        rw [middleStack]
        exact level.selects_only wants permitted
      have made : Action.pass.apply (middle.folded level.onlyRule) = .ok (.node tree) := by
        rw [ShiftReduce.folded, middleStack]
        rfl
      have folds := reaches_reduced middleUnread middleStack
        (symbol_ne_expression _ level.operand_ne) found made
      refine ⟨_, reaches.trans folds, ?_, middleUnread, ?_⟩
      · rw [stack_reduced, middleStack]
        rfl
      · rw [built_reduced, Level.onlyRule, level.label_only, middleUnread, middleBuilt,
          level.postorder_only, List.append_assoc]

theorem follows_fold (level : Level) {left : Derivation level.whole} {operator : Token}
    (isOperator : level.IsOperator operator) {right : Derivation level.operand}
    (followsLeft : Follows left) (followsRight : Follows right) :
    Follows (level.fold left operator isOperator right) := by
  intro machine token rest unread wants permitted
  simp only [level.tokens_fold, List.append_assoc, List.cons_append] at unread
  have symbol := level.symbol_eq isOperator
  have comesLeft := followsLeft machine operator (right.tokens ++ token :: rest) unread wants
    (symbol ▸ level.follows_operator isOperator)
  rw [level.outcome_fold, level.turns_fold]
  cases leftOutcome : left.outcome with
  | error fault =>
      rw [leftOutcome] at comesLeft
      exact comesLeft
  | ok leftTree =>
      rw [leftOutcome] at comesLeft
      obtain ⟨first, reachesLeft, firstStack, firstUnread, firstBuilt⟩ := comesLeft
      -- In front of an operator of its level the left operand is not folded any further.
      have shifts := turned_shift firstUnread (level.isLexeme isOperator) (by
        rw [firstStack, symbol]
        exact level.waits isOperator _)
      have shiftedStack : (first.shifted operator).stack =
          ⟨operator.text, .token operator⟩ :: ⟨level.whole.symbol, .node leftTree⟩ ::
            machine.stack := by
        have unmarked := level.shiftSymbol_eq isOperator
        rw [stack_shifted, firstStack]
        simp only [List.head?_cons, Option.map_some, unmarked]
      have shiftedUnread : (first.shifted operator).unread.tokens =
          right.tokens ++ token :: rest := by simp [firstUnread]
      have comesRight := followsRight (first.shifted operator) token rest shiftedUnread
        (by rw [shiftedStack]; exact level.wants_behind isOperator _)
        (level.follows_operand permitted)
      have reachesOperator := reachesLeft.trans (.single shifts)
      cases rightOutcome : right.outcome with
      | error fault =>
          rw [rightOutcome] at comesRight
          exact comesRight.error_after reachesOperator
      | ok rightTree =>
          rw [rightOutcome] at comesRight
          obtain ⟨second, reachesRight, secondStack, secondUnread, secondBuilt⟩ := comesRight
          rw [shiftedStack] at secondStack
          have found : findReduction? Rule.table (second.stack.map Frame.symbol) token.symbol =
              some (level.foldRule operator.text) := by
            rw [secondStack]
            exact level.selects_fold isOperator permitted _
          have made : (Action.binary operator.text).apply
              (second.folded (level.foldRule operator.text)) =
                .ok (.node (.binary operator.text leftTree rightTree)) := by
            rw [ShiftReduce.folded, secondStack]
            rfl
          have folds := reaches_reduced secondUnread secondStack
            (symbol_ne_expression _ level.operand_ne) found made
          refine ⟨_, (reachesOperator.trans reachesRight).trans folds, ?_, secondUnread, ?_⟩
          · rw [stack_reduced, secondStack]
            rfl
          · rw [built_reduced, Level.foldRule, level.label_fold isOperator, secondUnread,
              secondBuilt, built_shifted, firstBuilt, level.postorder_fold]
            simp

theorem follows {nonterminal : Nonterminal} (derivation : Derivation nonterminal) :
    Follows derivation := by
  induction derivation with
  | numeral token isNumeral => exact follows_numeral isNumeral
  | group opening closing opens closes inner ih => exact follows_group opens closes ih
  | signed sign isSign operand ih => exact follows_signed isSign ih
  | single factor ih => exact follows_only .products ih
  | product left operator isOperator right leftIH rightIH =>
      exact follows_fold .products isOperator leftIH rightIH
  | alone term ih => exact follows_only .sums ih
  | sum left operator isOperator right leftIH rightIH =>
      exact follows_fold .sums isOperator leftIH rightIH

end ShiftReduce

end Reckon
