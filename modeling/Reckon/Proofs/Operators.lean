import Reckon.Proofs.Descent.Language
import Reckon.Proofs.Evaluations
import Reckon.Proofs.ShiftReduce.Audit

/-!
# Operators of parsed trees

Which operators the trees of the parsers have, for streams of any tokens. The rules of the
bottom-up parser name the operators that they build, so its trees are legal whatever the tokens are.
The top-down parser takes the text of a token for an operator as it is, and takes a token for one
whose text occurs in a row of operators: beside the operators themselves these are the empty text
and the whole row. So its trees are legal exactly when the texts of the operator tokens are.
-/

set_option autoImplicit false

namespace Reckon

theorem Token.exists_of_number {token : Token} {tree : Tree Text} (made : token.number = .ok tree) :
    ∃ value : Double, tree = .number value ∧ value.isFinite = true := by
  unfold Token.number at made
  split at made
  · cases made
  · split_ifs at made with finite
    cases made
    exact ⟨_, rfl, finite⟩

section Rules

/-- What stands beside a symbol is a token, or a tree that stands for an expression. -/
def Item.IsLegal : Item → Prop
  | .token _ => True
  | .node tree => tree.IsLegal

/-- The actions that make legal trees of legal trees. -/
inductive Action.IsLegal : Action → Prop where
  | number : IsLegal .number
  | group : IsLegal .group
  | pass : IsLegal .pass
  | unary {operator : Text} : operator = "+" ∨ operator = "-" → IsLegal (.unary operator)
  | binary {operator : Text} : operator = "+" ∨ operator = "-" ∨ operator = "*" ∨ operator = "/" →
      IsLegal (.binary operator)

theorem Rule.table_isLegal : ∀ rule ∈ table, rule.action.IsLegal := by
  intro rule member
  simp only [table, List.mem_cons, List.not_mem_nil, or_false] at member
  rcases member with rfl | rfl | rfl | rfl | rfl | rfl | rfl | rfl | rfl | rfl
  all_goals constructor
  all_goals simp

variable {children : List Item} {item : Item} {place : Nat}

theorem Action.mem_of_child (found : child children place = .ok item) : item ∈ children := by
  unfold child at found
  cases held : children[place]? with
  | none =>
      rw [held] at found
      cases found
  | some other =>
      rw [held] at found
      cases found
      exact List.mem_of_getElem? held

theorem Action.tree_isLegal (legal : ∀ item ∈ children, item.IsLegal)
    (found : child children place = .ok item) {tree : Tree Text} (isNode : item.tree = .ok tree) :
    tree.IsLegal := by
  have itemLegal := legal item (mem_of_child found)
  cases item with
  | token read => cases isNode
  | node made =>
      cases isNode
      exact itemLegal

theorem Action.IsLegal.apply {action : Action} (isLegal : action.IsLegal)
    (legal : ∀ item ∈ children, item.IsLegal) (made : action.apply children = .ok item) :
    item.IsLegal := by
  cases isLegal with
  | number =>
      obtain ⟨first, found, made⟩ := except_bind_ok made
      cases first with
      | token token =>
          obtain ⟨tree, isNumber, returned⟩ := except_bind_ok made
          cases returned
          obtain ⟨value, rfl, finite⟩ := Token.exists_of_number isNumber
          exact .number finite
      | node tree =>
          cases made
          exact legal _ (mem_of_child found)
  | group | pass =>
      obtain ⟨inner, found, made⟩ := except_bind_ok made
      obtain ⟨tree, isNode, returned⟩ := except_bind_ok made
      cases returned
      exact tree_isLegal legal found isNode
  | unary sign =>
      obtain ⟨inner, found, made⟩ := except_bind_ok made
      obtain ⟨tree, isNode, returned⟩ := except_bind_ok made
      cases returned
      exact .unary sign (tree_isLegal legal found isNode)
  | binary known =>
      obtain ⟨first, firstFound, made⟩ := except_bind_ok made
      obtain ⟨left, leftIsNode, made⟩ := except_bind_ok made
      obtain ⟨third, thirdFound, made⟩ := except_bind_ok made
      obtain ⟨right, rightIsNode, returned⟩ := except_bind_ok made
      cases returned
      exact .binary known (tree_isLegal legal firstFound leftIsNode)
        (tree_isLegal legal thirdFound rightIsNode)

end Rules

section Folding

variable {α : Type} {width : Nat} {stack : List α} {element : α}

theorem mem_of_mem_covered (member : element ∈ covered width stack) : element ∈ stack := by
  unfold covered at member
  split_ifs at member
  · exact member
  · exact List.mem_of_mem_take member

theorem mem_of_mem_uncovered (member : element ∈ uncovered width stack) : element ∈ stack := by
  unfold uncovered at member
  split_ifs at member
  · cases member
  · exact List.mem_of_mem_drop member

end Folding

namespace ShiftReduce

variable {rules : List Rule} {machine next : ShiftReduce} {turns : Nat}

def HoldsLegal (machine : ShiftReduce) : Prop :=
  ∀ frame ∈ machine.stack, frame.item.IsLegal

theorem HoldsLegal.turned (legalRules : ∀ rule ∈ rules, rule.action.IsLegal)
    (holds : machine.HoldsLegal) (turned : Turned rules machine next) : next.HoldsLegal := by
  intro frame member
  cases turned with
  | shifted =>
      rw [stack_shifted, List.mem_cons] at member
      rcases member with rfl | below
      · trivial
      · exact holds frame below
  | reduced _ _ found made =>
      rw [stack_reduced, List.mem_cons] at member
      rcases member with rfl | below
      · refine (legalRules _ (Grammar.findReduction?_matches found).1).apply ?_ made
        intro item isFolded
        rw [folded, List.mem_reverse, List.mem_map] at isFolded
        obtain ⟨frame, isCovered, rfl⟩ := isFolded
        exact holds frame (mem_of_mem_covered isCovered)
      · exact holds frame (mem_of_mem_uncovered below)

theorem HoldsLegal.reaches (legalRules : ∀ rule ∈ rules, rule.action.IsLegal)
    (holds : machine.HoldsLegal) (reaches : Reaches rules turns machine next) :
    next.HoldsLegal := by
  induction reaches with
  | refl => exact holds
  | turn turned _ ih => exact ih (holds.turned legalRules turned)

/-- Rules that build legal trees only make a parser that does so. -/
theorem parseWith_isLegal (legalRules : ∀ rule ∈ rules, rule.action.IsLegal) {tokens : List Token}
    {cap? : Option Int} {parsed : Parsed} (accepted : parseWith rules tokens cap? = .ok parsed) :
    parsed.tree.IsLegal := by
  obtain ⟨-, -, after, done, -⟩ := exists_of_parseWith_ok accepted
  obtain ⟨turns, last, -, reaches, accepts⟩ := exists_of_run_ok done
  obtain ⟨token, rest, -, -, single, -⟩ := exists_of_turn_accepts accepts
  have nothing : (opening tokens).HoldsLegal := fun _ member => by cases member
  have holds := nothing.reaches legalRules reaches
  exact holds ⟨"E", .node parsed.tree⟩ (by simp [single])

end ShiftReduce

namespace Tree

/-- The operators of a tree from left to right, as they stand in an expression. -/
def operators {ω : Type} : Tree ω → List ω
  | .number _ => []
  | .unary operator operand => operator :: operand.operators
  | .binary operator left right => left.operators ++ operator :: right.operators
  | .foreign _ => []

end Tree

def Token.operatorTexts (tokens : List Token) : List Text :=
  (tokens.filter fun token => token.kind = .operator).map Token.text

theorem Token.operatorTexts_of_kind {token : Token} (kind : token.kind = .operator)
    (rest : List Token) : operatorTexts (token :: rest) = token.text :: operatorTexts rest := by
  simp [operatorTexts, kind]

theorem Token.operatorTexts_of_kind_ne {token : Token} (other : token.kind ≠ .operator)
    (rest : List Token) : operatorTexts (token :: rest) = operatorTexts rest := by
  simp [operatorTexts, other]

/-- Tokens of any kind up to an end of input, which is the only one. -/
inductive EndsOnce : List Token → Prop where
  | last {token : Token} : token.isEnd = true → EndsOnce [token]
  | cons {token : Token} {rest : List Token} : token.isEnd = false → EndsOnce rest →
      EndsOnce (token :: rest)

namespace EndsOnce

variable {token : Token} {rest tokens : List Token}

theorem ne_nil (stream : EndsOnce tokens) : tokens ≠ [] := by
  cases stream <;> simp

theorem tail (stream : EndsOnce (token :: rest)) (notLast : token.isEnd = false) :
    EndsOnce rest := by
  cases stream with
  | last isLast => simp [notLast] at isLast
  | cons _ behind => exact behind

theorem eq_nil_of_last (stream : EndsOnce (token :: rest)) (isLast : token.isEnd = true) :
    rest = [] := by
  cases stream with
  | last _ => rfl
  | cons notLast _ => simp [isLast] at notLast

theorem of_checkStream (accepted : Token.checkStream tokens = .ok ()) : EndsOnce tokens := by
  obtain ⟨front, last, rfl, -, others, isLast⟩ := Token.exists_of_checkStream accepted
  clear accepted
  induction front with
  | nil => exact .last isLast
  | cons first front ih =>
      exact .cons (others first (by simp)) (ih fun other member => others other (by simp [member]))

end EndsOnce

namespace Descent

/-- The trees that a descent makes of any tokens: the text of an operator occurs in the row of signs,
or for an operation in one of the two rows. -/
inductive Makes : Tree Text → Prop where
  | number {value : Double} : value.isFinite = true → Makes (.number value)
  | unary {operator : Text} {operand : Tree Text} :
      operator ∈ (["", "+", "-", "+-"] : List Text) → Makes operand →
      Makes (.unary operator operand)
  | binary {operator : Text} {left right : Tree Text} :
      operator ∈ (["", "+", "-", "+-", "*", "/", "*/"] : List Text) → Makes left → Makes right →
      Makes (.binary operator left right)

/-- What occurs in a row of two is empty, one of the two or the row. -/
theorem text_of_isOperatorOf {first second : Char} {token : Token}
    (isOperator : isOperatorOf (.ofCharacters [first, second]) token = true) :
    token.kind = .operator ∧
      token.text ∈ [[], [first], [second], [first, second]].map Text.ofCharacters := by
  obtain ⟨kind, occurs⟩ := Bool.and_eq_true_iff.mp isOperator
  refine ⟨eq_of_beq kind, ?_⟩
  obtain ⟨_, ⟨glyphs⟩, _⟩ := token
  rcases glyphs with _ | ⟨glyph, _ | ⟨other, _ | ⟨third, more⟩⟩⟩
  all_goals simp_all [occursIn, List.isPrefixOf, Text.ext_iff]

theorem sign_of_isOperatorOf {token : Token} (isOperator : isOperatorOf "+-" token = true) :
    token.kind = .operator ∧ token.text ∈ (["", "+", "-", "+-"] : List Text) :=
  text_of_isOperatorOf isOperator

theorem operator_of_isOperatorOf {token : Token}
    (isOperator : isOperatorOf "+-" token = true ∨ isOperatorOf "*/" token = true) :
    token.kind = .operator ∧
      token.text ∈ (["", "+", "-", "+-", "*", "/", "*/"] : List Text) := by
  rcases isOperator with isSign | isOther
  · obtain ⟨kind, text⟩ := sign_of_isOperatorOf isSign
    exact ⟨kind, List.mem_append_left (["*", "/", "*/"] : List Text) text⟩
  · obtain ⟨kind, text⟩ := text_of_isOperatorOf isOther
    refine ⟨kind, ?_⟩
    have inRow : token.text ∈ (["", "*", "/", "*/"] : List Text) := text
    revert inRow
    simp only [List.mem_cons, List.not_mem_nil, or_false]
    tauto

/-- A tree is made of the tokens between two places of a stream: its operators are the texts of the
operator tokens there. -/
structure Consumes (before : List Token) (tree : Tree Text) (after : List Token) : Prop where
  makes : Makes tree
  operators : Token.operatorTexts before = tree.operators ++ Token.operatorTexts after
  ends : EndsOnce after

/-- Where a run returns a tree, it has made it of the tokens that it has read. -/
def AlwaysConsumes (run : Run (Tree Text)) : Prop :=
  ∀ descent : Descent, EndsOnce descent.unread.tokens →
    Ends run descent (fun tree after => Consumes descent.unread.tokens tree after.unread.tokens)
      fun _ => True

section Reading

variable {descent : Descent} {kind : TokenKind}

theorem eat_ends (notEnd : kind ≠ .endOfInput) (stream : EndsOnce descent.unread.tokens) :
    Ends (eat kind) descent
      (fun token after => token.kind = kind ∧
        descent.unread.tokens = token :: after.unread.tokens ∧ EndsOnce after.unread.tokens)
      fun _ => True := by
  obtain ⟨token, rest, next⟩ := List.exists_cons_of_ne_nil stream.ne_nil
  rw [next] at stream ⊢
  by_cases wanted : token.kind = kind
  · have notLast : token.isEnd = false := by simpa [Token.isEnd, wanted] using notEnd
    have behind := stream.tail notLast
    refine .of_ok (wanted ▸ eat_eq next behind.ne_nil) ⟨wanted, ?_⟩
    rw [tokens_advanced, next]
    exact ⟨rfl, behind⟩
  · exact .of_error (eat_error next wanted) trivial

theorem numeral_ends (token : Token) :
    Ends (numeral token) descent
      (fun tree after => after = descent ∧ Makes tree ∧ tree.operators = []) fun _ => True := by
  unfold numeral
  cases made : token.number with
  | error fault => exact .of_error rfl trivial
  | ok tree =>
      obtain ⟨value, rfl, finite⟩ := Token.exists_of_number made
      exact .of_ok rfl ⟨rfl, .number finite, rfl⟩

theorem chain_consumes {operators : Text} {rule : Text → Text} {operand : Run (Tree Text)}
    (row : operators = "+-" ∨ operators = "*/") (operandConsumes : AlwaysConsumes operand)
    (turns : Nat) {start : List Token} {left : Tree Text} (descent : Descent)
    (consumed : Consumes start left descent.unread.tokens) :
    Ends (chain operators rule operand turns left) descent
      (fun tree after => Consumes start tree after.unread.tokens) fun _ => True := by
  -- As in the loop itself, the left operand so far accounts for what was read.
  induction turns generalizing left descent with
  | zero => exact .of_ok rfl consumed
  | succ turns ih =>
      obtain ⟨token, rest, next⟩ := List.exists_cons_of_ne_nil consumed.ends.ne_nil
      rw [chain]
      refine .bind_ok (atOperator_eq operators next) ?_
      cases continues : isOperatorOf operators token with
      | false => exact .of_ok rfl consumed
      | true =>
          rw [if_pos rfl]
          refine .andThen (eat_ends (by decide) consumed.ends) ?_
          rintro operator behind ⟨kind, read, ends⟩
          obtain ⟨rfl, -⟩ := List.cons.inj (next.symm.trans read)
          have inRow : isOperatorOf "+-" token = true ∨ isOperatorOf "*/" token = true := by
            rcases row with rfl | rfl
            · exact .inl continues
            · exact .inr continues
          refine .andThen (operandConsumes behind ends) ?_
          intro right after rightConsumed
          refine .bind_ok (step_eq ..) (ih _ ⟨?_, ?_, rightConsumed.ends⟩)
          · exact .binary (operator_of_isOperatorOf inRow).2 consumed.makes rightConsumed.makes
          · rw [consumed.operators, read, Token.operatorTexts_of_kind kind,
              rightConsumed.operators, Tree.operators, List.append_assoc, List.cons_append,
              unread_logged]

theorem level_consumes (level : Level) (row : level.operators = "+-" ∨ level.operators = "*/")
    {calls : Nat} (operandConsumes : AlwaysConsumes (parser level.operand calls)) :
    AlwaysConsumes (parser level.whole (calls + 1)) := by
  intro descent stream
  rw [level.parser_whole]
  refine .bind_ok (step_eq ..) ?_
  refine .andThen (operandConsumes _ (by exact stream)) ?_
  intro first after consumed
  exact .bind_ok (run_get after) (chain_consumes row operandConsumes _ after consumed)

theorem factor_consumes {calls : Nat} (operandConsumes : AlwaysConsumes (factor calls))
    (innerConsumes : AlwaysConsumes (expression calls)) : AlwaysConsumes (factor (calls + 1)) := by
  intro descent stream
  obtain ⟨token, rest, next⟩ := List.exists_cons_of_ne_nil stream.ne_nil
  rw [factor]
  refine .bind_ok (current_eq next) (.bind_ok (step_eq ..) ?_)
  refine .bind_ok (atOperator_eq "+-" (by exact next)) ?_
  cases signed : isOperatorOf "+-" token with
  | true =>
      rw [if_pos rfl]
      refine .andThen (eat_ends (by decide) (by exact stream)) ?_
      rintro sign behind ⟨kind, read, ends⟩
      rw [unread_logged] at read
      obtain ⟨rfl, -⟩ := List.cons.inj (next.symm.trans read)
      refine .andThen (operandConsumes behind ends) ?_
      intro operand after consumed
      refine .bind_ok (step_eq ..) (.of_ok rfl ⟨?_, ?_, consumed.ends⟩)
      · exact .unary (sign_of_isOperatorOf signed).2 consumed.makes
      · rw [read, Token.operatorTexts_of_kind kind, consumed.operators]
        rfl
  | false =>
      rw [if_neg (by simp)]
      cases kind : token.kind with
      | number =>
          refine .andThen (eat_ends (by decide) (by exact stream)) ?_
          rintro numeral behind ⟨isNumber, read, ends⟩
          rw [unread_logged] at read
          refine .andThen (numeral_ends token) ?_
          rintro tree _ ⟨rfl, makes, none⟩
          refine .bind_ok (step_eq ..) (.of_ok rfl ⟨makes, ?_, ends⟩)
          rw [read, Token.operatorTexts_of_kind_ne (by simp [isNumber]), none]
          rfl
      | leftParenthesis =>
          refine .bind_ok (step_eq ..) ?_
          refine .andThen (eat_ends (by decide) (by exact stream)) ?_
          rintro opening behind ⟨isOpening, read, ends⟩
          rw [unread_logged, unread_logged] at read
          refine .andThen (innerConsumes behind ends) ?_
          intro tree after consumed
          refine .andThen (eat_ends (by decide) consumed.ends) ?_
          rintro closing last ⟨isClosing, readLast, endsLast⟩
          refine .bind_ok (step_eq ..) (.of_ok rfl ⟨consumed.makes, ?_, endsLast⟩)
          rw [read, Token.operatorTexts_of_kind_ne (by simp [isOpening]), consumed.operators,
            readLast, Token.operatorTexts_of_kind_ne (by simp [isClosing]), unread_logged]
      | operator | rightParenthesis | endOfInput => exact .of_error rfl trivial

theorem parser_consumes (nonterminal : Nonterminal) (calls : Nat) :
    AlwaysConsumes (parser nonterminal calls) := by
  induction calls generalizing nonterminal with
  | zero => cases nonterminal <;> exact fun _ _ => .of_error rfl trivial
  | succ calls ih =>
      cases nonterminal with
      | expression => exact level_consumes .sums (.inl rfl) (ih .term)
      | term => exact level_consumes .products (.inr rfl) (ih .factor)
      | factor => exact factor_consumes (ih .factor) (ih .expression)

end Reading

variable {tokens : List Token} {parsed : Parsed}

theorem exists_of_accepted (accepted : parse tokens = .ok parsed) :
    Token.checkStream tokens = .ok () ∧
      ∃ after, whole (opening tokens) = .ok parsed.tree after := by
  unfold parse at accepted
  obtain ⟨_, stream, accepted⟩ := except_bind_ok accepted
  obtain ⟨_, -, accepted⟩ := except_bind_ok accepted
  refine ⟨stream, ?_⟩
  unfold opening
  dsimp only at accepted
  split at accepted
  case h_1 tree after done =>
    cases accepted
    exact ⟨after, done⟩
  case h_2 => cases accepted

/-- The operators of a tree that a descent makes are the texts of all operator tokens. -/
theorem makes_of_parse (accepted : parse tokens = .ok parsed) :
    Makes parsed.tree ∧ parsed.tree.operators = Token.operatorTexts tokens := by
  obtain ⟨stream, after, done⟩ := exists_of_accepted accepted
  have consumes := parser_consumes .expression depthLimit (opening tokens) (.of_checkStream stream)
  have ends : Ends whole (opening tokens)
      (fun tree _ => Makes tree ∧ tree.operators = Token.operatorTexts tokens) fun _ => True := by
    unfold whole
    refine .andThen consumes ?_
    intro tree middle consumed
    obtain ⟨trailing, rest, next⟩ := List.exists_cons_of_ne_nil consumed.ends.ne_nil
    refine .bind_ok (current_eq next) ?_
    cases isLast : trailing.isEnd with
    | false => exact .of_error rfl trivial
    | true =>
        refine .of_ok rfl ⟨consumed.makes, ?_⟩
        have last := consumed.ends
        rw [next] at last
        obtain rfl := last.eq_nil_of_last isLast
        have operators := consumed.operators
        rw [next, Token.operatorTexts_of_kind_ne (by simp [Token.isEnd_iff.mp isLast])] at operators
        exact (operators.trans (List.append_nil _)).symm
  exact ends.ok done

end Descent

theorem Tree.IsLegal.operators {tree : Tree Text} (legal : tree.IsLegal) {operator : Text}
    (member : operator ∈ tree.operators) : operator ∈ (["+", "-", "*", "/"] : List Text) := by
  induction legal with
  | number _ => cases member
  | unary sign _ ih =>
      rcases List.mem_cons.mp member with rfl | inOperand
      · rcases sign with rfl | rfl <;> simp
      · exact ih inOperand
  | binary known _ _ leftIH rightIH =>
      rcases List.mem_append.mp member with inLeft | behind
      · exact leftIH inLeft
      rcases List.mem_cons.mp behind with rfl | inRight
      · simpa using known
      · exact rightIH inRight

theorem Descent.Makes.isLegal {tree : Tree Text} (makes : Makes tree)
    (known : ∀ operator ∈ tree.operators, operator ∈ (["+", "-", "*", "/"] : List Text)) :
    tree.IsLegal := by
  induction makes with
  | number finite => exact .number finite
  | unary inRow _ ih =>
      refine .unary ?_ (ih fun operator member => known operator (List.mem_cons_of_mem _ member))
      have isKnown := known _ List.mem_cons_self
      simp only [List.mem_cons, List.not_mem_nil, or_false] at inRow
      rcases inRow with rfl | plus | minus | rfl
      · exact absurd isKnown (by decide)
      · exact .inl plus
      · exact .inr minus
      · exact absurd isKnown (by decide)
  | binary _ _ _ leftIH rightIH =>
      refine .binary ?_ (leftIH fun operator member => known operator (List.mem_append_left _ member))
        (rightIH fun operator member =>
          known operator (List.mem_append_right _ (List.mem_cons_of_mem _ member)))
      simpa using known _ (List.mem_append_right _ List.mem_cons_self)

/-- The trees of the bottom-up parser stand for expressions, whatever the tokens are. Those of the
top-down parser have finite leaves and the operator tokens' texts for operators, in their order, so
they stand for expressions if and only if these texts are the operators of the grammar. Beside them
an operator can be empty, or be the row of signs or the row of the other two. -/
theorem parsed_trees_are_legal_for_known_operators (tokens : List Token) :
    (∀ cap? parsed, ShiftReduce.parse tokens cap? = .ok parsed → parsed.tree.IsLegal) ∧
      ∀ parsed, Descent.parse tokens = .ok parsed →
        Descent.Makes parsed.tree ∧ parsed.tree.operators = Token.operatorTexts tokens ∧
          (parsed.tree.IsLegal ↔ ∀ token ∈ tokens, token.kind = .operator →
            token.text ∈ (["+", "-", "*", "/"] : List Text)) := by
  refine ⟨fun _ _ accepted => ShiftReduce.parseWith_isLegal Rule.table_isLegal accepted, ?_⟩
  intro parsed accepted
  obtain ⟨makes, operators⟩ := Descent.makes_of_parse accepted
  refine ⟨makes, operators, ?_⟩
  have texts : (∀ token ∈ tokens, token.kind = .operator →
        token.text ∈ (["+", "-", "*", "/"] : List Text)) ↔
      ∀ operator ∈ parsed.tree.operators, operator ∈ (["+", "-", "*", "/"] : List Text) := by
    rw [operators]
    simp only [Token.operatorTexts, List.mem_map, List.mem_filter, decide_eq_true_eq]
    constructor
    · rintro known _ ⟨token, ⟨member, kind⟩, rfl⟩
      exact known token member kind
    · exact fun known token member kind => known _ ⟨token, ⟨member, kind⟩, rfl⟩
  rw [texts]
  exact ⟨fun legal _ => legal.operators, makes.isLegal⟩

/-- Tokens of a two behind both signs at once. -/
def doubleSign : List Token :=
  [⟨.operator, "+-", 0⟩, ⟨.number, "2", 2⟩, ⟨.endOfInput, "", 3⟩]

/-- The top-down parser takes both signs for one operator. The bottom-up parser refuses them. -/
theorem doubleSign_is_taken_for_an_operator :
    (∃ parsed, Descent.parse doubleSign = .ok parsed ∧
        parsed.tree = .unary "+-" (.number (.ofInt 2)) ∧ ¬ parsed.tree.IsLegal) ∧
      (ShiftReduce.parse doubleSign none).isOk = false := by
  have answer : (Descent.parse doubleSign).map Parsed.tree =
      .ok (.unary "+-" (.number (.ofInt 2))) := by decide +kernel
  obtain ⟨parsed, accepted, isSigned⟩ := except_map_ok answer
  refine ⟨⟨parsed, accepted, isSigned, ?_⟩, by decide +kernel⟩
  rw [isSigned]
  intro legal
  exact absurd (legal.operators List.mem_cons_self) (by decide)

end Reckon
