import Reckon.Proofs.Pairings
import Reckon.Proofs.Parsing

/-!
# Positions of tokens

A parser looks at the classes and texts of its tokens only; positions are no more than passed on to
the faults. So streams of the same lexemes at other places are parsed alike: the answers are the
same, steps included, and where one stream is refused the other is refused for the same cause at the
corresponding token.
-/

set_option autoImplicit false

namespace Reckon

open Grammar (Nesting checkNesting maxNesting)

/-- The same lexeme at a place that corresponds to its place. -/
structure Token.MovesTo (places : Int → Int → Prop) (token moved : Token) : Prop where
  kind_eq : token.kind = moved.kind
  text_eq : token.text = moved.text
  place : places token.position moved.position

/-- The same fault at a place that corresponds to its place, if it has one. -/
inductive Fault.MovesTo (places : Int → Int → Prop) : Fault → Fault → Prop where
  | syntactic {cause : SyntaxCause} {position moved : Int} :
      places position moved → MovesTo places (.syntactic cause position) (.syntactic cause moved)
  | placeless {fault : Fault} : fault.diagnosis? = none → MovesTo places fault fault

variable {places : Int → Int → Prop} {tokens moved : List Token}

namespace Token.MovesTo

variable {token other : Token}

theorem symbol_eq (moves : token.MovesTo places other) : token.symbol = other.symbol := by
  simp [Token.symbol, moves.kind_eq, moves.text_eq]

theorem shown_eq (moves : token.MovesTo places other) : token.shown = other.shown := by
  simp [Token.shown, moves.kind_eq, moves.text_eq]

theorem isEnd_eq (moves : token.MovesTo places other) : token.isEnd = other.isEnd := by
  simp [Token.isEnd, moves.kind_eq]

theorem isLexeme (moves : token.MovesTo places other) (lexeme : token.IsLexeme) :
    other.IsLexeme :=
  lexeme.of_same moves.kind_eq.symm moves.text_eq.symm

theorem fault (moves : token.MovesTo places other) (cause : SyntaxCause) :
    Fault.MovesTo places (.syntactic cause token.position) (.syntactic cause other.position) :=
  .syntactic moves.place

theorem number (moves : token.MovesTo places other) :
    PairedOutcomes Eq (Fault.MovesTo places) token.number other.number := by
  unfold Token.number
  rw [moves.text_eq]
  split
  · exact .error (.placeless rfl)
  · split
    · exact .ok rfl
    · exact .error (moves.fault _)

end Token.MovesTo

theorem map_shown_of_moves (moves : List.Forall₂ (Token.MovesTo places) tokens moved) :
    tokens.map Token.shown = moved.map Token.shown := by
  induction moves with
  | nil => rfl
  | cons first _ ih => rw [List.map_cons, List.map_cons, first.shown_eq, ih]

theorem WellFormed.of_moves (wellFormed : WellFormed tokens)
    (moves : List.Forall₂ (Token.MovesTo places) tokens moved) : WellFormed moved := by
  refine ⟨?_, moves.length_eq ▸ wellFormed.nonempty⟩
  have terminated := wellFormed.terminated
  clear wellFormed
  induction moves with
  | nil => exact terminated
  | cons first rest ih =>
      cases terminated with
      | last isLast =>
          cases rest
          exact .last (first.kind_eq ▸ isLast)
      | lexeme lexeme terminated => exact .lexeme (first.isLexeme lexeme) (ih terminated)

theorem Grammar.Nesting.check_moves (limit : Int) (nesting : Nesting)
    (moves : List.Forall₂ (Token.MovesTo places) tokens moved) :
    PairedOutcomes Eq (Fault.MovesTo places) (nesting.check limit tokens)
      (nesting.check limit moved) := by
  induction moves generalizing nesting with
  | nil => exact .ok rfl
  | cons first _ ih =>
      rw [check, check, next, first.symbol_eq, ← next]
      split
      · exact .error (first.fault _)
      · exact ih _

theorem Grammar.checkNesting_moves (limit : Int)
    (moves : List.Forall₂ (Token.MovesTo places) tokens moved) :
    PairedOutcomes Eq (Fault.MovesTo places) (checkNesting tokens limit)
      (checkNesting moved limit) :=
  Nesting.start.check_moves limit moves

/-- What is nested too deeply is refused alike, so parsers that check the nesting first need to be
compared only where it is allowed. -/
theorem moves_of_checkNesting {answer movedAnswer : Except Fault Parsed}
    (moves : List.Forall₂ (Token.MovesTo places) tokens moved)
    (tooDeep : ∀ fault, checkNesting tokens maxNesting = .error fault → answer = .error fault)
    (movedTooDeep : ∀ fault, checkNesting moved maxNesting = .error fault →
      movedAnswer = .error fault)
    (allowed : checkNesting tokens maxNesting = .ok () → checkNesting moved maxNesting = .ok () →
      PairedOutcomes Eq (Fault.MovesTo places) answer movedAnswer) :
    PairedOutcomes Eq (Fault.MovesTo places) answer movedAnswer := by
  have nestings := Grammar.checkNesting_moves maxNesting moves
  cases nested : checkNesting tokens maxNesting with
  | error fault =>
      rw [nested] at nestings
      obtain ⟨movedFault, movedNested, faults⟩ := nestings.exists_error
      rw [tooDeep fault nested, movedTooDeep movedFault movedNested]
      exact .error faults
  | ok _ =>
      rw [nested] at nestings
      obtain ⟨_, movedNested, -⟩ := nestings.exists_ok
      exact allowed nested movedNested

namespace Descent

/-- Descents over the same lexemes at corresponding places, with the same log. -/
structure MovesTo (places : Int → Int → Prop) (descent other : Descent) : Prop where
  tokens : List.Forall₂ (Token.MovesTo places) descent.unread.tokens other.unread.tokens
  log_eq : descent.log = other.log

/-- A part of a descent takes no notice of positions. -/
abbrev Moves {α α' : Type} (places : Int → Int → Prop) (values : α → α' → Prop) (run : Run α)
    (run' : Run α') : Prop :=
  PairedRuns (MovesTo places) values (Fault.MovesTo places) run run'

variable {descent other : Descent}

theorem MovesTo.texts_eq (moves : descent.MovesTo places other) :
    descent.unread.texts = other.unread.texts := by
  rw [descent.unread.texts_eq, other.unread.texts_eq, map_shown_of_moves moves.tokens]

theorem tokens_advance (unread : Unread) :
    unread.advance.tokens =
      match unread.tokens with
      | _ :: second :: rest => second :: rest
      | tokens => tokens := by
  unfold Unread.advance
  cases tokens : unread.tokens with
  | nil => simp [tokens]
  | cons first rest => cases rest <;> simp [tokens]

theorem MovesTo.advance (moves : descent.MovesTo places other) :
    MovesTo places { descent with unread := descent.unread.advance }
      { other with unread := other.unread.advance } := by
  refine ⟨?_, moves.log_eq⟩
  rw [tokens_advance, tokens_advance]
  have tokens := moves.tokens
  generalize descent.unread.tokens = left at tokens
  generalize other.unread.tokens = right at tokens
  cases tokens with
  | nil => exact .nil
  | cons first rest =>
      cases rest with
      | nil => exact .cons first .nil
      | cons second rest => exact .cons second rest

theorem current_moves : Moves places (Token.MovesTo places) current current := by
  intro descent other moves
  have tokens := moves.tokens
  unfold current
  generalize descent.unread.tokens = left at tokens
  generalize other.unread.tokens = right at tokens
  cases tokens with
  | nil => exact .error (.placeless rfl) moves
  | cons first rest => exact .ok first moves

theorem step_moves {action : StepAction} {description : Text} {rule : Option Text} :
    Moves places Eq (step action description rule) (step action description rule) :=
  .of_modify fun descent other moves => ⟨moves.tokens, by rw [moves.log_eq, moves.texts_eq]⟩

theorem eat_moves (kind : TokenKind) :
    Moves places (Token.MovesTo places) (eat kind) (eat kind) := by
  unfold eat
  refine .bind current_moves fun token token' moves => ?_
  rw [moves.kind_eq]
  split
  · refine .bind_same (.of_modify fun _ _ => MovesTo.advance) fun _ => .of_pure moves
  · exact .of_throw (moves.fault _)

theorem atOperator_moves (operators : Text) :
    Moves places Eq (atOperator operators) (atOperator operators) := by
  unfold atOperator
  refine .bind current_moves fun token token' moves => .of_pure ?_
  rw [moves.kind_eq, moves.text_eq]

theorem chain_moves (operators : Text) (rule : Text → Text) {operand : Run (Tree Text)}
    (operandMoves : Moves places Eq operand operand) (turns : Nat) (left : Tree Text) :
    Moves places Eq (chain operators rule operand turns left)
      (chain operators rule operand turns left) := by
  induction turns generalizing left with
  | zero => exact .of_pure rfl
  | succ turns ih =>
      rw [chain]
      refine .bind_same (atOperator_moves operators) fun continues => ?_
      split
      · refine .bind (eat_moves .operator) fun token token' moves => ?_
        rw [moves.text_eq]
        exact .bind_same operandMoves fun right => .bind_same step_moves fun _ => ih _
      · exact .of_pure rfl

theorem numeral_moves {token token' : Token} (moves : token.MovesTo places token') :
    Moves places Eq (numeral token) (numeral token') := by
  have numbers := moves.number
  unfold numeral
  generalize token.number = outcome at numbers
  generalize token'.number = outcome' at numbers
  cases numbers with
  | ok same => exact .of_pure same
  | error faults => exact .of_throw faults

theorem factor_moves {calls : Nat} (factorMoves : Moves places Eq (factor calls) (factor calls))
    (expressionMoves : Moves places Eq (expression calls) (expression calls)) :
    Moves places Eq (factor (calls + 1)) (factor (calls + 1)) := by
  rw [factor]
  refine .bind current_moves fun token token' moves => ?_
  rw [moves.kind_eq, moves.text_eq]
  refine .bind_same step_moves fun _ => .bind_same (atOperator_moves "+-") fun signed => ?_
  split
  · refine .bind (eat_moves .operator) fun _ _ _ => .bind_same factorMoves fun operand => ?_
    exact .bind_same step_moves fun _ => .of_pure rfl
  · split
    · refine .bind (eat_moves .number) fun _ _ _ => .bind_same (numeral_moves moves) fun tree => ?_
      exact .bind_same step_moves fun _ => .of_pure rfl
    · refine .bind_same step_moves fun _ => .bind (eat_moves .leftParenthesis) fun _ _ _ => ?_
      refine .bind_same expressionMoves fun tree => .bind (eat_moves _) fun _ _ _ => ?_
      exact .bind_same step_moves fun _ => .of_pure rfl
    · exact .of_throw (moves.fault _)
    · exact .of_throw (moves.fault _)

theorem level_moves (level : Level) {calls : Nat}
    (operandMoves : Moves places Eq (parser level.operand calls) (parser level.operand calls)) :
    Moves places Eq (parser level.whole (calls + 1)) (parser level.whole (calls + 1)) := by
  rw [level.parser_whole]
  refine .bind_same step_moves fun _ => .bind_same operandMoves fun first => ?_
  refine .bind .of_get fun descent other moves => ?_
  rw [moves.tokens.length_eq]
  exact chain_moves level.operators level.rule operandMoves _ first

theorem parser_moves (nonterminal : Nonterminal) (calls : Nat) :
    Moves places Eq (parser nonterminal calls) (parser nonterminal calls) := by
  induction calls generalizing nonterminal with
  | zero => cases nonterminal <;> exact .of_throw (.placeless rfl)
  | succ calls ih =>
      cases nonterminal with
      | expression => exact level_moves .sums (ih .term)
      | term => exact level_moves .products (ih .factor)
      | factor => exact factor_moves (ih .factor) (ih .expression)

theorem whole_moves : Moves places Eq whole whole := by
  unfold whole
  refine .bind_same (parser_moves .expression depthLimit) fun tree => ?_
  refine .bind current_moves fun trailing trailing' moves => ?_
  rw [moves.isEnd_eq, moves.kind_eq, moves.text_eq]
  split
  · refine .bind_same (.of_modify fun descent other moves => ?_) fun _ => .of_pure rfl
    exact ⟨moves.tokens, by rw [moves.log_eq]⟩
  · exact .of_throw (moves.fault _)

theorem parse_moves (wellFormed : WellFormed tokens)
    (moves : List.Forall₂ (Token.MovesTo places) tokens moved) :
    PairedOutcomes Eq (Fault.MovesTo places) (parse tokens) (parse moved) := by
  have movedWellFormed := wellFormed.of_moves moves
  refine moves_of_checkNesting moves (fun _ => parse_of_tooDeep wellFormed)
    (fun _ => parse_of_tooDeep movedWellFormed) ?_
  intro nested movedNested
  rw [parse_of_allowed wellFormed nested, parse_of_allowed movedWellFormed movedNested]
  have ends := whole_moves (opening tokens) (opening moved)
    ⟨moves, by simp only [opening, start, map_shown_of_moves moves]⟩
  generalize whole (opening tokens) = result at ends
  generalize whole (opening moved) = result' at ends
  cases ends with
  | ok same states => exact .ok (by rw [same, states.log_eq])
  | error faults _ => exact .error faults

end Descent

inductive Item.MovesTo (places : Int → Int → Prop) : Item → Item → Prop where
  | token {token moved : Token} :
      token.MovesTo places moved → MovesTo places (.token token) (.token moved)
  | node {tree : Tree Text} : MovesTo places (.node tree) (.node tree)

structure Frame.MovesTo (places : Int → Int → Prop) (frame moved : Frame) : Prop where
  symbol_eq : frame.symbol = moved.symbol
  item : frame.item.MovesTo places moved.item

theorem Item.MovesTo.tree {item other : Item} (moves : item.MovesTo places other) :
    PairedOutcomes Eq (Fault.MovesTo places) item.tree other.tree := by
  cases moves with
  | token moves =>
      simp only [Item.tree, moves.text_eq]
      exact .error (moves.fault _)
  | node => exact .ok rfl

namespace Action

variable {children others : List Item}

theorem child_moves (moves : List.Forall₂ (Item.MovesTo places) children others) (place : Nat) :
    PairedOutcomes (Item.MovesTo places) (Fault.MovesTo places) (child children place)
      (child others place) := by
  induction moves generalizing place with
  | nil => exact .error (.placeless rfl)
  | cons first _ ih =>
      cases place with
      | zero => exact .ok first
      | succ place => exact ih place

/-- An action takes no notice of positions. -/
def Moves (places : Int → Int → Prop) (action : Action) : Prop :=
  ∀ {children others : List Item}, List.Forall₂ (Item.MovesTo places) children others →
    PairedOutcomes (Item.MovesTo places) (Fault.MovesTo places) (action.apply children)
      (action.apply others)

theorem moves_of_buildsTrees {action : Action} (builds : Grammar.BuildsTrees action) :
    action.Moves places := by
  have same : ∀ {tree tree' : Tree Text}, tree = tree' →
      PairedOutcomes (Item.MovesTo places) (Fault.MovesTo places)
        (.ok (.node tree)) (.ok (.node tree')) := by
    rintro tree _ rfl
    exact .ok .node
  intro children others moves
  cases builds with
  | number =>
      refine (child_moves moves 0).bind fun item other itemMoves => ?_
      cases itemMoves with
      | token moves => exact moves.number.bind fun _ _ => same
      | node => exact .ok .node
  | group =>
      refine (child_moves moves 1).bind fun item other itemMoves => ?_
      exact itemMoves.tree.bind fun _ _ => same
  | pass =>
      refine (child_moves moves 0).bind fun item other itemMoves => ?_
      exact itemMoves.tree.bind fun _ _ => same
  | unary =>
      refine (child_moves moves 1).bind fun item other itemMoves => ?_
      exact itemMoves.tree.bind fun _ _ equal => same (by rw [equal])
  | binary =>
      refine (child_moves moves 0).bind fun item other itemMoves => ?_
      refine itemMoves.tree.bind fun left left' leftSame => ?_
      refine (child_moves moves 2).bind fun item other itemMoves => ?_
      exact itemMoves.tree.bind fun _ _ equal => same (by rw [leftSame, equal])

theorem table_moves : ∀ rule ∈ Rule.table, rule.action.Moves places :=
  fun rule member => moves_of_buildsTrees (Grammar.table_buildsTrees rule member)

end Action

namespace ShiftReduce

/-- Machines over the same lexemes at corresponding places, with the same log. -/
structure MovesTo (places : Int → Int → Prop) (machine other : ShiftReduce) : Prop where
  tokens : List.Forall₂ (Token.MovesTo places) machine.unread.tokens other.unread.tokens
  stack : List.Forall₂ (Frame.MovesTo places) machine.stack other.stack
  log_eq : machine.log = other.log

abbrev Moves {α α' : Type} (places : Int → Int → Prop) (values : α → α' → Prop) (run : Run α)
    (run' : Run α') : Prop :=
  PairedRuns (MovesTo places) values (Fault.MovesTo places) run run'

variable {machine other : ShiftReduce} {rules : List Rule}

theorem map_symbol_of_moves {stack moved : List Frame}
    (moves : List.Forall₂ (Frame.MovesTo places) stack moved) :
    stack.map Frame.symbol = moved.map Frame.symbol := by
  induction moves with
  | nil => rfl
  | cons first _ ih => rw [List.map_cons, List.map_cons, first.symbol_eq, ih]

theorem MovesTo.texts_eq (moves : machine.MovesTo places other) :
    machine.unread.texts = other.unread.texts := by
  rw [machine.unread.texts_eq, other.unread.texts_eq, map_shown_of_moves moves.tokens]

theorem lookahead_moves : Moves places (Token.MovesTo places) lookahead lookahead := by
  intro machine other moves
  have tokens := moves.tokens
  unfold lookahead
  generalize machine.unread.tokens = left at tokens
  generalize other.unread.tokens = right at tokens
  cases tokens with
  | nil => exact .error (.placeless rfl) moves
  | cons first rest => exact .ok first moves

theorem accepting_moves : Moves places Eq accepting accepting := by
  unfold accepting
  refine .bind .of_get fun machine other moves => ?_
  have stack := moves.stack
  generalize machine.stack = left at stack
  generalize other.stack = right at stack
  cases stack with
  | nil => exact .of_pure rfl
  | cons first rest =>
      cases rest with
      | nil =>
          simp only [first.symbol_eq]
          split
          · exact .bind lookahead_moves fun token token' tokenMoves => .of_pure tokenMoves.isEnd_eq
          · exact .of_pure rfl
      | cons second rest => exact .of_pure rfl

theorem shouldReduce_moves :
    Moves places (fun rule? rule?' => rule? = rule?' ∧ ∀ rule ∈ rule?, rule ∈ rules)
      (shouldReduce rules) (shouldReduce rules) := by
  unfold shouldReduce
  refine .bind lookahead_moves fun token token' tokenMoves => ?_
  refine .bind .of_get fun machine other moves => .of_pure ⟨?_, ?_⟩
  · rw [map_symbol_of_moves moves.stack, tokenMoves.symbol_eq]
  · exact fun rule found => (Grammar.findReduction?_matches found).1

section Stacks

variable {stack moved : List Frame} (moves : List.Forall₂ (Frame.MovesTo places) stack moved)
include moves

theorem symbolsOf_moves : symbolsOf stack = symbolsOf moved := by
  rw [symbolsOf, symbolsOf, map_symbol_of_moves moves]

theorem items_moves :
    List.Forall₂ (Item.MovesTo places) (stack.map Frame.item).reverse
      (moved.map Frame.item).reverse := by
  refine List.rel_reverse ?_
  induction moves with
  | nil => exact .nil
  | cons first _ ih => exact .cons first.item ih

theorem covered_moves (width : Nat) :
    List.Forall₂ (Frame.MovesTo places) (covered width stack) (covered width moved) := by
  unfold covered
  split
  · exact moves
  · exact List.forall₂_take width moves

theorem uncovered_moves (width : Nat) :
    List.Forall₂ (Frame.MovesTo places) (uncovered width stack) (uncovered width moved) := by
  unfold uncovered
  split
  · exact .nil
  · exact List.forall₂_drop width moves

end Stacks

theorem shiftSymbol_moves {token token' : Token} (tokenMoves : token.MovesTo places token')
    (moves : machine.MovesTo places other) :
    Grammar.shiftSymbol token (machine.stack.head?.map Frame.symbol) =
      Grammar.shiftSymbol token' (other.stack.head?.map Frame.symbol) := by
  rw [← List.head?_map, ← List.head?_map, map_symbol_of_moves moves.stack]
  simp only [Grammar.shiftSymbol, tokenMoves.symbol_eq]

theorem MovesTo.shifted {token token' : Token} (tokenMoves : token.MovesTo places token')
    (moves : machine.MovesTo places other) :
    (machine.shifted token).MovesTo places (other.shifted token') := by
  have stack : List.Forall₂ (Frame.MovesTo places) (machine.shifted token).stack
      (other.shifted token').stack :=
    .cons ⟨shiftSymbol_moves tokenMoves moves, .token tokenMoves⟩ moves.stack
  have tokens : List.Forall₂ (Token.MovesTo places) machine.unread.tokens.tail
      other.unread.tokens.tail := by
    rw [← List.drop_one, ← List.drop_one]
    exact List.forall₂_drop 1 moves.tokens
  refine ⟨tokens, stack, ?_⟩
  change machine.log.record _ _ (symbolsOf (machine.shifted token).stack)
    machine.unread.texts.tail _ = other.log.record _ _ (symbolsOf (other.shifted token').stack)
      other.unread.texts.tail _
  rw [symbolsOf_moves stack, moves.texts_eq, moves.log_eq, tokenMoves.text_eq]

theorem MovesTo.popped (rule : Rule) (moves : machine.MovesTo places other) :
    (machine.popped rule).MovesTo places (other.popped rule) :=
  ⟨moves.tokens, uncovered_moves moves.stack rule.rhs.length, moves.log_eq⟩

theorem MovesTo.reduced (rule : Rule) {item item' : Item} (itemMoves : item.MovesTo places item')
    (moves : machine.MovesTo places other) :
    (machine.reduced rule item).MovesTo places (other.reduced rule item') := by
  have stack : List.Forall₂ (Frame.MovesTo places) (machine.reduced rule item).stack
      (other.reduced rule item').stack :=
    .cons ⟨rfl, itemMoves⟩ (moves.popped rule).stack
  refine ⟨moves.tokens, stack, ?_⟩
  change machine.log.record _ _ (symbolsOf (machine.reduced rule item).stack)
    machine.unread.texts _ = other.log.record _ _ (symbolsOf (other.reduced rule item').stack)
      other.unread.texts _
  rw [symbolsOf_moves stack, moves.texts_eq, moves.log_eq]

theorem shift_moves : Moves places Eq shift shift := by
  unfold shift
  refine .bind lookahead_moves fun token token' tokenMoves => ?_
  exact .of_modify fun machine other => MovesTo.shifted tokenMoves

theorem reduce_moves {rule : Rule} (applies : rule.action.Moves places) :
    Moves places Eq (reduce rule) (reduce rule) := by
  intro machine other moves
  have made : PairedOutcomes (Item.MovesTo places) (Fault.MovesTo places)
      (rule.action.apply (machine.folded rule)) (rule.action.apply (other.folded rule)) :=
    applies (items_moves (covered_moves moves.stack rule.rhs.length))
  rw [reduce_eq, reduce_eq]
  generalize rule.action.apply (machine.folded rule) = outcome at made
  generalize rule.action.apply (other.folded rule) = outcome' at made
  cases made with
  | ok itemMoves => exact .ok rfl (moves.reduced rule itemMoves)
  | error faults => exact .error faults (moves.popped rule)

theorem accept_moves : Moves places Eq accept accept := by
  unfold accept
  refine .bind_same (.of_modify fun machine other moves => ?_) fun _ => ?_
  · refine ⟨moves.tokens, moves.stack, ?_⟩
    simp only [symbols, symbolsOf_moves moves.stack, moves.log_eq]
  · refine .bind .of_get fun machine other moves => ?_
    have stack : List.Forall₂ (Item.MovesTo places) machine.items other.items :=
      items_moves moves.stack
    generalize machine.items = left at stack
    generalize other.items = right at stack
    cases stack with
    | nil => exact .of_throw (.placeless rfl)
    | cons first rest =>
        cases first with
        | node => exact .of_pure rfl
        | token tokenMoves =>
            simp only [tokenMoves.text_eq]
            exact .of_throw (tokenMoves.fault _)

theorem turn_moves (applies : ∀ rule ∈ rules, rule.action.Moves places) :
    Moves places Eq (turn rules) (turn rules) := by
  unfold turn
  refine .bind_same accepting_moves fun accepts => ?_
  split
  · exact .bind_same accept_moves fun _ => .of_pure rfl
  · refine .bind shouldReduce_moves ?_
    rintro rule? _ ⟨rfl, known⟩
    cases rule? with
    | some rule =>
        exact .bind_same (reduce_moves (applies rule (known rule rfl))) fun _ => .of_pure rfl
    | none =>
        refine .bind lookahead_moves fun token token' moves => ?_
        rw [moves.isEnd_eq]
        split
        · exact .of_throw (moves.fault _)
        · exact .bind_same shift_moves fun _ => .of_pure rfl

theorem run_moves (applies : ∀ rule ∈ rules, rule.action.Moves places) (cap : Nat) :
    Moves places Eq (run rules cap) (run rules cap) := by
  induction cap with
  | zero =>
      rw [run]
      exact .bind lookahead_moves fun token token' moves => .of_throw (moves.fault _)
  | succ cap ih =>
      rw [run]
      refine .bind_same (turn_moves applies) fun tree? => ?_
      cases tree? with
      | some tree => exact .of_pure rfl
      | none => exact ih

theorem parse_moves (wellFormed : WellFormed tokens) (cap? : Option Int)
    (moves : List.Forall₂ (Token.MovesTo places) tokens moved) :
    PairedOutcomes Eq (Fault.MovesTo places) (parse tokens cap?) (parse moved cap?) := by
  have movedWellFormed := wellFormed.of_moves moves
  refine moves_of_checkNesting moves (fun _ => parse_of_tooDeep wellFormed)
    (fun _ => parse_of_tooDeep movedWellFormed) ?_
  intro nested movedNested
  rw [parse_of_allowed wellFormed nested, parse_of_allowed movedWellFormed movedNested, allowance,
    moves.length_eq, ← allowance]
  have ends := run_moves Action.table_moves (allowance moved cap?) (opening tokens) (opening moved)
    ⟨moves, .nil, by simp only [opening, start, map_shown_of_moves moves]⟩
  generalize run Rule.table _ (opening tokens) = result at ends
  generalize run Rule.table _ (opening moved) = result' at ends
  cases ends with
  | ok same states => exact .ok (by rw [same, states.log_eq])
  | error faults _ => exact .error faults

end ShiftReduce

/-- Whatever the strategy and the cap, streams of the same lexemes get answers that differ in the
places of faults only. -/
theorem Strategy.parse_moves (strategy : Strategy) (wellFormed : WellFormed tokens)
    (cap? : Option Int) (moves : List.Forall₂ (Token.MovesTo places) tokens moved) :
    PairedOutcomes Eq (Fault.MovesTo places) (strategy.parse tokens cap?)
      (strategy.parse moved cap?) := by
  cases strategy with
  | topDown => exact Descent.parse_moves wellFormed moves
  | bottomUp => exact ShiftReduce.parse_moves wellFormed cap? moves

def SameIndex (tokens moved : List Token) (place other : Int) : Prop :=
  ∃ (index : Nat) (token movedToken : Token), tokens[index]? = some token ∧
    moved[index]? = some movedToken ∧ token.position = place ∧ movedToken.position = other

theorem moves_to_sameIndex (moves : List.Forall₂ (Token.MovesTo places) tokens moved) :
    List.Forall₂ (Token.MovesTo (SameIndex tokens moved)) tokens moved := by
  rw [List.forall₂_iff_get] at moves ⊢
  obtain ⟨sameLength, same⟩ := moves
  refine ⟨sameLength, fun index bound movedBound => ?_⟩
  have here := same index bound movedBound
  exact ⟨here.kind_eq, here.text_eq, index, _, _, List.getElem?_eq_getElem bound,
    List.getElem?_eq_getElem movedBound, rfl, rfl⟩

/-- Streams of the same lexemes are both parsed, with the same answer, or both refused, for the same
cause and at the same lexeme. -/
theorem Strategy.parse_same_lexemes (strategy : Strategy) (wellFormed : WellFormed tokens)
    (cap? : Option Int) (moves : List.Forall₂ (Token.MovesTo places) tokens moved) :
    (∃ parsed, strategy.parse tokens cap? = .ok parsed ∧ strategy.parse moved cap? = .ok parsed) ∨
      ∃ cause position movedPosition, SameIndex tokens moved position movedPosition ∧
        strategy.parse tokens cap? = .error (.syntactic cause position) ∧
        strategy.parse moved cap? = .error (.syntactic cause movedPosition) := by
  have answers := strategy.parse_moves wellFormed cap? (moves_to_sameIndex moves)
  cases answer : strategy.parse tokens cap? with
  | ok parsed =>
      rw [answer] at answers
      obtain ⟨_, movedAnswer, rfl⟩ := answers.exists_ok
      exact .inl ⟨parsed, rfl, movedAnswer⟩
  | error fault =>
      rw [answer] at answers
      obtain ⟨movedFault, movedAnswer, faults⟩ := answers.exists_error
      cases faults with
      | @syntactic cause position movedPosition corresponds =>
          exact .inr ⟨cause, position, movedPosition, corresponds, rfl, movedAnswer⟩
      | placeless noPlace =>
          obtain ⟨cause, token, -, rfl⟩ := strategy.exists_token_of_refused wellFormed answer
          cases noPlace

end Reckon
