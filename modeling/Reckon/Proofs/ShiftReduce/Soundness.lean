import Reckon.Proofs.ShiftReduce.Levels

/-!
# Soundness of the machine

Folding by a rule of the grammar keeps what the stack stands for: the rules are the productions of
the grammar, and the meaning that a rule makes is the meaning of the derivation that its production
makes. So every state of a run on a stream stands for what it has shifted, the tree that is accepted
is the meaning of the stream, and what is refused is refused for a cause that is about the source.
-/

set_option autoImplicit false

namespace Reckon.ShiftReduce

variable {stack : List Frame} {seen tokens : List Token} {machine next : ShiftReduce}

/-- The rules of the grammar are its productions. -/
inductive Production : Rule → Prop where
  | numeral : Production ⟨"F", ["NUMBER"], .number⟩
  | group : Production ⟨"F", ["(", "E", ")"], .group⟩
  | signed {operator : Text} : operator = "+" ∨ operator = "-" →
      Production ⟨"F", ["u" ++ operator, "F"], .unary operator⟩
  | only (level : Level) : Production level.onlyRule
  | fold (level : Level) {operator : Text} : level.IsText operator →
      Production (level.foldRule operator)

theorem production_of_mem {rule : Rule} (member : rule ∈ Rule.table) : Production rule := by
  simp only [Rule.table, List.mem_cons, List.not_mem_nil, or_false] at member
  rcases member with rfl | rfl | rfl | rfl | rfl | rfl | rfl | rfl | rfl | rfl
  · exact .numeral
  · exact .group
  · exact .signed (.inl rfl)
  · exact .signed (.inr rfl)
  · exact .fold .products (.inl rfl)
  · exact .fold .products (.inr rfl)
  · exact .only .products
  · exact .fold .sums (.inl rfl)
  · exact .fold .sums (.inr rfl)
  · exact .only .sums

/-- Folding a stack by a rule keeps the tokens that it stands for, or refuses a numeral of them. -/
def Keeps (rule : Rule) (stack : List Frame) (seen : List Token) : Prop :=
  match rule.action.apply ((covered rule.rhs.length stack).map Frame.item).reverse with
  | .ok item => Stacked (⟨rule.lhs, item⟩ :: uncovered rule.rhs.length stack) seen
  | .error fault => Overflows seen fault

theorem Keeps.stacked {rule : Rule} (keeps : Keeps rule machine.stack seen) {item : Item}
    (made : rule.action.apply (machine.folded rule) = .ok item) :
    Stacked (machine.reduced rule item).stack seen := by
  unfold Keeps at keeps
  change rule.action.apply (((covered rule.rhs.length machine.stack).map Frame.item).reverse) = _
    at made
  rwa [made] at keeps

theorem Keeps.overflows {rule : Rule} (keeps : Keeps rule machine.stack seen) {fault : Fault}
    (failed : rule.action.apply (machine.folded rule) = .error fault) : Overflows seen fault := by
  unfold Keeps at keeps
  change rule.action.apply (((covered rule.rhs.length machine.stack).map Frame.item).reverse) = _
    at failed
  rwa [failed] at keeps

theorem apply_number (token : Token) :
    Action.number.apply [.token token] = token.number.map Item.node := by
  cases made : token.number <;>
    simp [Action.number, Action.child, made, bind, pure, Except.bind, Except.pure, Except.map]

theorem keeps_numeral (stacked : Stacked stack seen)
    (top : (["NUMBER"] : List Text) <+: stack.map Frame.symbol) :
    Keeps ⟨"F", ["NUMBER"], .number⟩ stack seen := by
  obtain ⟨frame, below, part, before, rfl, isSymbol, -, rfl, stands, stackedBelow⟩ :=
    stacked.of_top top
  obtain ⟨token, item, rfl, marks⟩ := stands.marked isSymbol (terminal_of_notMem (by decide))
  have numeral := marks.isNumeral
  change match Action.number.apply [frame.item] with
    | .ok item => Stacked (⟨"F", item⟩ :: below) (before ++ [token])
    | .error fault => Overflows (before ++ [token]) fault
  rw [item, apply_number]
  cases made : token.number with
  | ok tree => exact .cons (.node (.numeral token numeral) made) stackedBelow
  | error fault =>
      exact numeral.overflows made (List.mem_append_right before (List.mem_singleton_self token))

theorem keeps_group (stacked : Stacked stack seen)
    (top : ([")", "E", "("] : List Text) <+: stack.map Frame.symbol) :
    Keeps ⟨"F", ["(", "E", ")"], .group⟩ stack seen := by
  obtain ⟨third, _, _, _, rfl, isClosing, topSecond, rfl, stands, stackedSecond⟩ :=
    stacked.of_top top
  obtain ⟨closing, -, rfl, closes⟩ :=
    stands.marked isClosing (terminal_of_notMem (by decide))
  obtain ⟨second, _, _, _, rfl, isExpression, topFirst, rfl, stands, stackedFirst⟩ :=
    stackedSecond.of_top topSecond
  obtain ⟨inner, tree, innerItem, rfl, outcome⟩ :=
    stands.derivation .expression isExpression
  obtain ⟨first, below, _, before, rfl, isOpening, -, rfl, stands, stackedBelow⟩ :=
    stackedFirst.of_top topFirst
  obtain ⟨opening, -, rfl, opens⟩ :=
    stands.marked isOpening (terminal_of_notMem (by decide))
  change match Action.group.apply [first.item, second.item, third.item] with
    | .ok item => Stacked (⟨"F", item⟩ :: below) _
    | .error fault => Overflows _ fault
  have applied : Action.group.apply [first.item, .node tree, third.item] = .ok (.node tree) := rfl
  rw [innerItem, applied]
  have whole := Stands.node (.group opening closing opens.isOpening closes.isClosing inner) outcome
  have folded := Stacked.cons whole stackedBelow
  simpa [Derivation.tokens, Nonterminal.symbol] using folded

theorem keeps_signed {operator : Text} (isSign : operator = "+" ∨ operator = "-")
    (stacked : Stacked stack seen)
    (top : (["F", "u" ++ operator] : List Text) <+: stack.map Frame.symbol) :
    Keeps ⟨"F", ["u" ++ operator, "F"], .unary operator⟩ stack seen := by
  have isMark : ("u" ++ operator : Text) = "u+" ∨ ("u" ++ operator : Text) = "u-" := by
    rcases isSign with rfl | rfl
    · exact .inl marked_signs.1
    · exact .inr marked_signs.2
  have notNonterminal : ("u" ++ operator : Text) ∉ (["E", "T", "F"] : List Text) := by
    rcases isMark with mark | mark <;> rw [mark] <;> decide
  obtain ⟨second, _, _, _, rfl, isFactor, topFirst, rfl, stands, stackedFirst⟩ :=
    stacked.of_top top
  obtain ⟨operand, tree, operandItem, rfl, outcome⟩ :=
    stands.derivation .factor isFactor
  obtain ⟨first, below, _, before, rfl, isMarked, -, rfl, stands, stackedBelow⟩ :=
    stackedFirst.of_top topFirst
  obtain ⟨sign, -, rfl, marks⟩ := stands.marked isMarked (terminal_of_notMem notNonterminal)
  obtain ⟨additive, text⟩ := marks.isSign isMark
  obtain rfl : sign.text = operator := Text.append_left_cancel text
  change match (Action.unary sign.text).apply [first.item, second.item] with
    | .ok item => Stacked (⟨"F", item⟩ :: below) _
    | .error fault => Overflows _ fault
  have applied : (Action.unary sign.text).apply [first.item, .node tree] =
      .ok (.node (.unary sign.text tree)) := rfl
  have meaning : (Derivation.signed sign additive operand).outcome =
      .ok (.unary sign.text tree) := by
    rw [Derivation.outcome, outcome]
    rfl
  rw [operandItem, applied]
  have folded := Stacked.cons (.node (.signed sign additive operand) meaning) stackedBelow
  simpa [Derivation.tokens, Nonterminal.symbol] using folded

theorem keeps_only (level : Level) (stacked : Stacked stack seen)
    (top : [level.operand.symbol] <+: stack.map Frame.symbol) :
    Keeps level.onlyRule stack seen := by
  obtain ⟨frame, below, _, before, rfl, isOperand, -, rfl, stands, stackedBelow⟩ :=
    stacked.of_top top
  obtain ⟨operand, tree, item, rfl, outcome⟩ := stands.derivation _ isOperand
  change match Action.pass.apply [frame.item] with
    | .ok item => Stacked (⟨level.whole.symbol, item⟩ :: below) _
    | .error fault => Overflows _ fault
  have applied : Action.pass.apply [.node tree] = .ok (.node tree) := rfl
  have meaning : (level.only operand).outcome = .ok tree := by rw [level.outcome_only, outcome]
  rw [item, applied]
  have folded := Stacked.cons (.node (level.only operand) meaning) stackedBelow
  rwa [level.tokens_only] at folded

theorem keeps_fold (level : Level) {operator : Text} (isText : level.IsText operator)
    (stacked : Stacked stack seen)
    (top : [level.operand.symbol, operator, level.whole.symbol] <+: stack.map Frame.symbol) :
    Keeps (level.foldRule operator) stack seen := by
  obtain ⟨third, _, _, _, rfl, isOperand, topSecond, rfl, stands, stackedSecond⟩ :=
    stacked.of_top top
  obtain ⟨right, rightTree, rightItem, rfl, rightOutcome⟩ := stands.derivation _ isOperand
  obtain ⟨second, _, _, _, rfl, isMarked, topFirst, rfl, stands, stackedFirst⟩ :=
    stackedSecond.of_top topSecond
  obtain ⟨token, -, rfl, marks⟩ := stands.marked isMarked (level.terminal isText)
  obtain ⟨isOperator, rfl⟩ := level.marked marks isText
  obtain ⟨first, below, _, before, rfl, isWhole, -, rfl, stands, stackedBelow⟩ :=
    stackedFirst.of_top topFirst
  obtain ⟨left, leftTree, leftItem, rfl, leftOutcome⟩ := stands.derivation _ isWhole
  change match (Action.binary token.text).apply [first.item, second.item, third.item] with
    | .ok item => Stacked (⟨level.whole.symbol, item⟩ :: below) _
    | .error fault => Overflows _ fault
  have applied : (Action.binary token.text).apply
      [.node leftTree, second.item, .node rightTree] =
        .ok (.node (.binary token.text leftTree rightTree)) := rfl
  have meaning : (level.fold left token isOperator right).outcome =
      .ok (.binary token.text leftTree rightTree) := by
    rw [level.outcome_fold, leftOutcome, rightOutcome]
    rfl
  rw [leftItem, rightItem, applied]
  have folded := Stacked.cons (.node (level.fold left token isOperator right) meaning) stackedBelow
  rw [level.tokens_fold] at folded
  simpa using folded

theorem Production.keeps {rule : Rule} (production : Production rule)
    (top : rule.rhs.reverse <+: stack.map Frame.symbol) (stacked : Stacked stack seen) :
    Keeps rule stack seen := by
  cases production with
  | numeral => exact keeps_numeral stacked top
  | group => exact keeps_group stacked top
  | signed isSign => exact keeps_signed isSign stacked top
  | only level => exact keeps_only level stacked top
  | fold level isText => exact keeps_fold level isText stacked top

/-- A machine stands for what it has shifted of a stream. -/
structure Sound (tokens : List Token) (machine : ShiftReduce) (seen : List Token) : Prop where
  stacked : Stacked machine.stack seen
  tokens_eq : tokens = seen ++ machine.unread.tokens
  terminated : Terminated machine.unread.tokens

namespace Sound

theorem start (terminated : Terminated tokens) (log : StepLog) :
    Sound tokens (.start tokens log) [] :=
  ⟨.nil, rfl, terminated⟩

/-- The rule that the table selects keeps what the machine stands for. -/
theorem keeps (sound : Sound tokens machine seen) {token : Token} {rule : Rule}
    (found : machine.ruleAt? Rule.table token = some rule) : Keeps rule machine.stack seen := by
  obtain ⟨member, top, -⟩ := Grammar.findReduction?_spec found
  exact (production_of_mem member).keeps top sound.stacked

/-- Every turn keeps what the machine stands for, and a token that it shifts is added. -/
theorem turned (sound : Sound tokens machine seen) (turned : Turned Rule.table machine next) :
    ∃ more, Sound tokens next more := by
  cases turned with
  | @reduced token rest rule item unread goesOn found made =>
      exact ⟨seen, (sound.keeps found).stacked made, sound.tokens_eq, sound.terminated⟩
  | @shifted token rest unread goesOn noRule notLast =>
      have terminated := unread ▸ sound.terminated
      have lexeme : token.IsLexeme := by
        rcases terminated.head with lexeme | isLast
        · exact lexeme
        · exact absurd (Token.isEnd_iff.mpr isLast) (by simp [notLast])
      refine ⟨seen ++ [token], .cons (.token (marks_shiftSymbol lexeme _)) sound.stacked, ?_, ?_⟩
      · simp [sound.tokens_eq, unread]
      · simpa [unread] using terminated.tail lexeme

theorem reaches {turns : Nat} (sound : ∃ seen, Sound tokens machine seen)
    (reaches : Reaches Rule.table turns machine next) : ∃ seen, Sound tokens next seen := by
  induction reaches with
  | refl => exact sound
  | turn turned _ ih =>
      obtain ⟨_, sound⟩ := sound
      exact ih (sound.turned turned)

/-- A lone expression stands for everything that was shifted. -/
theorem derivation_of_single (sound : Sound tokens machine seen) {item : Item}
    (single : machine.stack = [⟨"E", item⟩]) :
    ∃ derivation : Derivation .expression, ∃ tree, item = .node tree ∧
      seen = derivation.tokens ∧ derivation.outcome = .ok tree := by
  have top : (["E"] : List Text) <+: machine.stack.map Frame.symbol := by simp [single]
  obtain ⟨frame, below, part, before, stack_eq, isExpression, -, rfl, stands, stackedBelow⟩ :=
    sound.stacked.of_top top
  obtain ⟨rfl, rfl⟩ := List.cons.inj (single.symm.trans stack_eq)
  cases stackedBelow
  obtain ⟨derivation, tree, isNode, rfl, outcome⟩ := stands.derivation .expression isExpression
  exact ⟨derivation, tree, isNode, rfl, outcome⟩

/-- What a turn ends with: a machine that accepts has read the whole stream. -/
theorem turn_ends (sound : Sound tokens machine seen) :
    Ends (turn Rule.table) machine
      (fun accepted _ => ∀ tree, accepted = some tree → Means tokens tree) (Refuses tokens) := by
  have outcome := turn_outcome Rule.table machine
  generalize result : turn Rule.table machine = ended at outcome
  cases outcome with
  | starved unread => exact absurd unread sound.terminated.ne_nil
  | @accepted last rest tree unread isLast single =>
      obtain ⟨derivation, made, isNode, seen_eq, meaning⟩ := sound.derivation_of_single single
      obtain rfl : tree = made := Item.node.inj isNode
      have isEnd := Token.isEnd_iff.mp isLast
      have terminated := unread ▸ sound.terminated
      obtain rfl := terminated.eq_nil_of_last isEnd
      have tokens_eq := sound.tokens_eq
      rw [unread, seen_eq] at tokens_eq
      refine .of_ok result ?_
      rintro _ ⟨⟩
      exact ⟨derivation, ⟨last, isEnd, tokens_eq⟩, meaning⟩
  | bare _ _ single =>
      obtain ⟨derivation, made, isNode, -⟩ := sound.derivation_of_single single
      cases isNode
  | folded => exact .of_ok result nofun
  | unmade unread found failed =>
      refine .of_error result (((sound.keeps found).overflows failed).refuses.of_subset ?_)
      rw [sound.tokens_eq]
      exact List.subset_append_left _ _
  | shifted => exact .of_ok result nofun
  | stuck unread isLast =>
      exact .of_error result ⟨_, _, by simp [sound.tokens_eq, unread], rfl, rfl, by simp⟩

/-- What a whole run ends with. One that comes to its cap points at the token that would be next. -/
theorem run_ends (sound : Sound tokens machine seen) (cap : Nat) :
    Ends (run Rule.table cap) machine (fun tree _ => Means tokens tree)
      (fun fault => Refuses tokens fault ∨
        ∃ token ∈ tokens, fault = .syntactic .capReached token.position) := by
  cases outcome : run Rule.table cap machine with
  | ok tree after =>
      obtain ⟨turns, last, -, reaches, accepts⟩ := exists_of_run_ok outcome
      obtain ⟨_, soundLast⟩ := Sound.reaches ⟨seen, sound⟩ reaches
      exact .of_ok outcome (soundLast.turn_ends.ok accepts tree rfl)
  | error fault after =>
      refine .of_error outcome ?_
      obtain ⟨turns, last, reaches, ends⟩ := exists_of_run_error outcome
      obtain ⟨_, soundLast⟩ := Sound.reaches ⟨seen, sound⟩ reaches
      rcases ends with ⟨-, refused⟩ | ⟨-, stopped⟩
      · exact .inl (soundLast.turn_ends.error refused)
      · obtain ⟨token, rest, unread⟩ := List.exists_cons_of_ne_nil soundLast.terminated.ne_nil
        rw [run_zero unread] at stopped
        cases stopped
        exact .inr ⟨token, by simp [soundLast.tokens_eq, unread], rfl⟩

end Sound

end Reckon.ShiftReduce
