import Reckon.Parsing.Descent
import Reckon.Proofs.Nesting
import Reckon.Proofs.Runs
import Reckon.Proofs.StepLogs

/-!
# Steps of the descent

What the single operations of the top-down parser do in a state whose next token is known, and which
of the tokens of a stream it takes for an operator of a level. Only binary operations are noted with
their rule; `reading` tells the rule of the other constructions from what is said about them.
-/

set_option autoImplicit false

namespace Reckon

/-- What stands behind the first part of a text, when the text starts with it. -/
def Text.after? (front text : Text) : Option Text :=
  if front.toList.isPrefixOf text.toList then some ⟨text.toList.drop front.length⟩ else none

theorem Text.after?_append (front rest : Text) : front.after? (front ++ rest) = some rest := by
  have starts : front.toList.isPrefixOf (front.toList ++ rest.toList) = true := by simp
  rw [after?, toList_append, if_pos starts, Text.length, List.drop_left]

namespace Descent

/-- The rule that a step of the descent built by. -/
def reading (step : Step) : Option Text :=
  match step.rule with
  | some rule => some rule
  | none =>
    if (Text.after? "Created number node: " step.description).isSome then some "F → NUMBER"
    else if step.description = "Completed parenthesized expression" then some "F → ( E )"
    else (Text.after? "Created unary operation: " step.description).map fun operator =>
      "F → u" ++ operator ++ " F"

variable {descent : Descent} {token : Token} {rest : List Token}

theorem current_eq (next : descent.unread.tokens = token :: rest) :
    current descent = .ok token descent := by
  simp [current, next]

def advanced (descent : Descent) : Descent :=
  { descent with unread := descent.unread.tail }

@[simp] theorem tokens_advanced (descent : Descent) :
    descent.advanced.unread.tokens = descent.unread.tokens.tail := rfl

def logged (descent : Descent) (action : StepAction) (description : Text) (rule : Option Text) :
    Descent :=
  { descent with log := descent.log.record action description [] descent.unread.texts rule }

@[simp] theorem unread_logged (descent : Descent) (action : StepAction) (description : Text)
    (rule : Option Text) : (descent.logged action description rule).unread = descent.unread := rfl

/-- What was built so far. -/
def built (descent : Descent) : List Construction :=
  constructions reading descent.log.toList

@[simp] theorem built_advanced (descent : Descent) : descent.advanced.built = descent.built := rfl

theorem built_logged_of_ne (descent : Descent) {action : StepAction} (other : action ≠ .reduce)
    (description : Text) (rule : Option Text) :
    (descent.logged action description rule).built = descent.built :=
  StepLog.constructions_record_of_ne reading descent.log other description _ _ rule

theorem built_logged_reduce (descent : Descent) {description : Text} {rule : Option Text}
    {name : Text} (reads : ∀ index stack remaining,
      reading ⟨index, .reduce, stack, remaining, description, rule⟩ = some name) :
    (descent.logged .reduce description rule).built =
      descent.built ++ [⟨some name, descent.unread.tokens.map Token.shown⟩] := by
  rw [built, logged, StepLog.constructions_record_reduce, StepLog.next, reads,
    descent.unread.texts_eq]
  rfl

theorem built_numeral (descent : Descent) (shown : Text) :
    (descent.logged .reduce ("Created number node: " ++ shown) none).built =
      descent.built ++ [⟨some "F → NUMBER", descent.unread.tokens.map Token.shown⟩] :=
  descent.built_logged_reduce fun _ _ _ => by simp [reading, Text.after?_append]

theorem built_group (descent : Descent) :
    (descent.logged .reduce "Completed parenthesized expression" none).built =
      descent.built ++ [⟨some "F → ( E )", descent.unread.tokens.map Token.shown⟩] :=
  descent.built_logged_reduce fun _ _ _ => by
    simp only [reading]
    decide

theorem built_signed (descent : Descent) {sign : Token} (isSign : sign.IsAdditive) :
    (descent.logged .reduce ("Created unary operation: " ++ sign.text) none).built =
      descent.built ++
        [⟨some ("F → u" ++ sign.text ++ " F"), descent.unread.tokens.map Token.shown⟩] :=
  descent.built_logged_reduce fun _ _ _ => by
    simp only [reading]
    rcases isSign.text with plus | minus <;> simp only [*] <;> decide

theorem built_labelled (descent : Descent) (description label : Text) :
    (descent.logged .reduce description (some label)).built =
      descent.built ++ [⟨some label, descent.unread.tokens.map Token.shown⟩] :=
  descent.built_logged_reduce fun _ _ _ => rfl

def noted (descent : Descent) : Nat :=
  descent.log.size

@[simp] theorem noted_advanced (descent : Descent) : descent.advanced.noted = descent.noted := rfl

@[simp] theorem noted_logged (descent : Descent) (action : StepAction) (description : Text)
    (rule : Option Text) : (descent.logged action description rule).noted = descent.noted + 1 :=
  descent.log.size_record action description _ _ rule

theorem step_eq (descent : Descent) (action : StepAction) (description : Text)
    (rule : Option Text) :
    step action description rule descent = .ok () (descent.logged action description rule) := rfl

theorem eat_eq (next : descent.unread.tokens = token :: rest) (behind : rest ≠ []) :
    eat token.kind descent = .ok token descent.advanced := by
  obtain ⟨second, others, rfl⟩ := List.exists_cons_of_ne_nil behind
  have advance : descent.unread.advance = descent.unread.tail := by
    simp [Unread.advance, next]
  unfold eat
  rw [run_bind_ok (current_eq next), if_pos rfl]
  simp only [advanced, ← advance]
  rfl

theorem eat_error {kind : TokenKind} (next : descent.unread.tokens = token :: rest)
    (other : token.kind ≠ kind) :
    eat kind descent = .error (.syntactic (.wrongKind kind token.kind) token.position) descent := by
  unfold eat
  rw [run_bind_ok (current_eq next), if_neg other]
  rfl

/-- Whether a token is an operator among the given ones. -/
def isOperatorOf (operators : Text) (token : Token) : Bool :=
  token.kind == .operator && occursIn token.text.toList operators.toList

theorem atOperator_eq (operators : Text) (next : descent.unread.tokens = token :: rest) :
    atOperator operators descent = .ok (isOperatorOf operators token) descent := by
  unfold atOperator
  rw [run_bind_ok (current_eq next)]
  rfl

theorem isOperatorOf_of_kind_ne (operators : Text) (other : token.kind ≠ .operator) :
    isOperatorOf operators token = false := by
  simp [isOperatorOf, other]

theorem isOperatorOf_additive (additive : token.IsAdditive) : isOperatorOf "+-" token = true := by
  rcases additive.text with plus | minus <;>
    simp only [isOperatorOf, additive.kind, *] <;> decide

theorem isOperatorOf_multiplicative (multiplicative : token.IsMultiplicative) :
    isOperatorOf "*/" token = true := by
  rcases multiplicative.text with times | divide <;>
    simp only [isOperatorOf, multiplicative.kind, *] <;> decide

theorem not_isOperatorOf_multiplicative (multiplicative : token.IsMultiplicative) :
    isOperatorOf "+-" token = false := by
  rcases multiplicative.text with times | divide <;>
    simp only [isOperatorOf, multiplicative.kind, *] <;> decide

theorem not_isOperatorOf_additive (additive : token.IsAdditive) :
    isOperatorOf "*/" token = false := by
  rcases additive.text with plus | minus <;>
    simp only [isOperatorOf, additive.kind, *] <;> decide

/-- On lexemes and the end of input the loop of sums goes on exactly at a plus or minus. -/
theorem isAdditive_of_isOperatorOf (known : token.IsLexeme ∨ token.kind = .endOfInput)
    (operator : isOperatorOf "+-" token = true) : token.IsAdditive := by
  rcases known with lexeme | isLast
  · cases lexeme with
    | numeral numeral => simp [isOperatorOf, numeral.kind] at operator
    | additive additive => exact additive
    | multiplicative multiplicative =>
        simp [not_isOperatorOf_multiplicative multiplicative] at operator
    | opening opening => simp [isOperatorOf, opening.kind] at operator
    | closing closing => simp [isOperatorOf, closing.kind] at operator
  · simp [isOperatorOf, isLast] at operator

theorem isMultiplicative_of_isOperatorOf (known : token.IsLexeme ∨ token.kind = .endOfInput)
    (operator : isOperatorOf "*/" token = true) : token.IsMultiplicative := by
  rcases known with lexeme | isLast
  · cases lexeme with
    | numeral numeral => simp [isOperatorOf, numeral.kind] at operator
    | additive additive => simp [not_isOperatorOf_additive additive] at operator
    | multiplicative multiplicative => exact multiplicative
    | opening opening => simp [isOperatorOf, opening.kind] at operator
    | closing closing => simp [isOperatorOf, closing.kind] at operator
  · simp [isOperatorOf, isLast] at operator

/-- The state in which a factor has noted its first token. -/
def entered (descent : Descent) (token : Token) : Descent :=
  descent.logged .process
    ("Processing factor: " ++ if token.text.isEmpty then endMark else token.text) none

@[simp] theorem unread_entered (descent : Descent) (token : Token) :
    (descent.entered token).unread = descent.unread := rfl

@[simp] theorem built_entered (descent : Descent) (token : Token) :
    (descent.entered token).built = descent.built :=
  descent.built_logged_of_ne (by decide) _ _

@[simp] theorem noted_entered (descent : Descent) (token : Token) :
    (descent.entered token).noted = descent.noted + 1 :=
  descent.noted_logged ..

variable {calls : Nat}

theorem factor_of_numeral (calls : Nat) (next : descent.unread.tokens = token :: rest)
    (behind : rest ≠ []) (numeral : token.IsNumeral) :
    factor (calls + 1) descent =
      match token.number with
      | .ok tree =>
        .ok tree ((descent.entered token).advanced.logged .reduce
          ("Created number node: " ++ shownNumber tree) none)
      | .error fault => .error fault (descent.entered token).advanced := by
  have nextEntered : (descent.entered token).unread.tokens = token :: rest := next
  rw [factor, run_bind_ok (current_eq next), run_bind_ok (step_eq ..)]
  change (atOperator "+-" >>= _) (descent.entered token) = _
  rw [run_bind_ok (atOperator_eq "+-" nextEntered),
    isOperatorOf_of_kind_ne _ (by simp [numeral.kind]), if_neg (by simp), numeral.kind]
  simp only
  rw [run_bind_ok (numeral.kind ▸ eat_eq nextEntered behind)]
  cases made : token.number with
  | error fault => exact run_bind_error (by simp [Descent.numeral, made]; rfl)
  | ok tree =>
      have numeralRun : Descent.numeral token (descent.entered token).advanced =
          .ok tree (descent.entered token).advanced := by
        simp [Descent.numeral, made]
        rfl
      rw [run_bind_ok numeralRun]
      rfl

theorem factor_of_sign (next : descent.unread.tokens = token :: rest) (behind : rest ≠ [])
    (sign : token.IsAdditive) :
    factor (calls + 1) descent =
      (do
        let operand ← factor calls
        step .reduce ("Created unary operation: " ++ token.text) none
        return .unary token.text operand : Run (Tree Text)) (descent.entered token).advanced := by
  have nextEntered : (descent.entered token).unread.tokens = token :: rest := next
  rw [factor, run_bind_ok (current_eq next), run_bind_ok (step_eq ..)]
  change (atOperator "+-" >>= _) (descent.entered token) = _
  rw [run_bind_ok (atOperator_eq "+-" nextEntered), isOperatorOf_additive sign, if_pos rfl,
    run_bind_ok (sign.kind ▸ eat_eq nextEntered behind)]

def opened (descent : Descent) (token : Token) : Descent :=
  ((descent.entered token).logged .process "Processing parenthesized expression" none).advanced

@[simp] theorem tokens_opened (descent : Descent) (token : Token) :
    (descent.opened token).unread.tokens = descent.unread.tokens.tail := rfl

@[simp] theorem built_opened (descent : Descent) (token : Token) :
    (descent.opened token).built = descent.built :=
  (built_logged_of_ne _ (by decide) _ _).trans (descent.built_entered token)

@[simp] theorem noted_opened (descent : Descent) (token : Token) :
    (descent.opened token).noted = descent.noted + 2 := by
  rw [opened, noted_advanced, noted_logged, noted_entered]

theorem factor_of_opening (next : descent.unread.tokens = token :: rest) (behind : rest ≠ [])
    (opening : token.IsOpening) :
    factor (calls + 1) descent =
      (do
        let tree ← expression calls
        let _ ← eat .rightParenthesis
        step .reduce "Completed parenthesized expression" none
        return tree : Run (Tree Text)) (descent.opened token) := by
  have nextEntered : (descent.entered token).unread.tokens = token :: rest := next
  rw [factor, run_bind_ok (current_eq next), run_bind_ok (step_eq ..)]
  change (atOperator "+-" >>= _) (descent.entered token) = _
  rw [run_bind_ok (atOperator_eq "+-" nextEntered),
    isOperatorOf_of_kind_ne _ (by simp [opening.kind]), if_neg (by simp), opening.kind]
  simp only
  rw [run_bind_ok (step_eq ..), run_bind_ok (opening.kind ▸ eat_eq (by exact nextEntered) behind)]
  rfl

theorem factor_of_end (next : descent.unread.tokens = token :: rest)
    (isLast : token.kind = .endOfInput) :
    factor (calls + 1) descent =
      .error (.syntactic .missingOperand token.position) (descent.entered token) := by
  have nextEntered : (descent.entered token).unread.tokens = token :: rest := next
  rw [factor, run_bind_ok (current_eq next), run_bind_ok (step_eq ..)]
  change (atOperator "+-" >>= _) (descent.entered token) = _
  rw [run_bind_ok (atOperator_eq "+-" nextEntered),
    isOperatorOf_of_kind_ne _ (by simp [isLast]), isLast]
  rfl

theorem factor_of_stray (next : descent.unread.tokens = token :: rest)
    (stray : token.IsMultiplicative ∨ token.IsClosing) :
    factor (calls + 1) descent =
      .error (.syntactic (.strayToken token.kind token.text) token.position)
        (descent.entered token) := by
  have nextEntered : (descent.entered token).unread.tokens = token :: rest := next
  rw [factor, run_bind_ok (current_eq next), run_bind_ok (step_eq ..)]
  change (atOperator "+-" >>= _) (descent.entered token) = _
  rw [run_bind_ok (atOperator_eq "+-" nextEntered)]
  rcases stray with multiplicative | closing
  · rw [not_isOperatorOf_multiplicative multiplicative, multiplicative.kind]
    rfl
  · rw [isOperatorOf_of_kind_ne _ (by simp [closing.kind]), closing.kind]
    rfl

end Descent

end Reckon
