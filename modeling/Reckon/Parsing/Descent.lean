import Reckon.Grammar.Nesting
import Reckon.Parsing.Strategy

/-!
# Descent

The top-down parser. Expressions, terms and factors are parsed by three functions that call each
other; the operators of one level are folded to the left by a loop, and a sign calls for another
factor. The functions can be called in any state, and a fault leaves the state that it found.
-/

set_option autoImplicit false

namespace Reckon

structure Descent where
  unread : Unread
  log : StepLog

namespace Descent

/-- A part of a descent: it returns a value or a fault, and the state it leaves. -/
abbrev Run (α : Type) := EStateM Fault Descent α

def start (tokens : List Token) (log : StepLog) : Descent :=
  ⟨Unread.ofTokens tokens, log⟩

def current : Run Token := fun descent =>
  match descent.unread.tokens with
  | token :: _ => .ok token descent
  | [] => .error .outOfRange descent

def step (action : StepAction) (description : Text) (rule : Option Text) : Run Unit :=
  modify fun descent =>
    { descent with
      log := descent.log.record action description [] descent.unread.texts rule }

/-- Reads a token of the wanted class. The last token of a stream is read without leaving it. -/
def eat (kind : TokenKind) : Run Token := do
  let token ← current
  if token.kind = kind then
    modify fun descent => { descent with unread := descent.unread.advance }
    return token
  else throw (.syntactic (.wrongKind kind token.kind) token.position)

/-- Whether the first glyphs occur in a row among the others. -/
def occursIn (part : List Glyph) : List Glyph → Bool
  | [] => part.isEmpty
  | glyph :: rest => part.isPrefixOf (glyph :: rest) || occursIn part rest

def atOperator (operators : Text) : Run Bool := do
  let token ← current
  return token.kind == .operator && occursIn token.text.toList operators.toList

/-- The loop of one level: while an operator of the level comes next, it is read, an operand is
parsed and the two operands are folded. Each turn reads a token, so as many turns as there are
unread tokens are enough. -/
def chain (operators : Text) (rule : Text → Text) (operand : Run (Tree Text)) :
    Nat → Tree Text → Run (Tree Text)
  | 0, left => return left
  | turns + 1, left => do
    if ← atOperator operators then
      let operator := (← eat .operator).text
      let right ← operand
      step .reduce ("Created binary operation: " ++ operator) (some (rule operator))
      chain operators rule operand turns (.binary operator left right)
    else return left

def numeral (token : Token) : Run (Tree Text) :=
  match Token.number token with
  | .ok tree => return tree
  | .error fault => throw fault

/-- The number shown for a numeral that was read. -/
def shownNumber : Tree Text → String
  | .number value => value.display
  | _ => ""

mutual

/-- A factor: a sign and a factor, a numeral, or an expression in parentheses. The first argument
bounds the calls inside each other. -/
def factor : Nat → Run (Tree Text)
  | 0 => throw .callDepth
  | calls + 1 => do
    let token ← current
    step .process ("Processing factor: " ++ if token.text.isEmpty then endMark else token.text) none
    if ← atOperator "+-" then
      let _ ← eat .operator
      let operand ← factor calls
      step .reduce ("Created unary operation: " ++ token.text) none
      return .unary token.text operand
    else
      match token.kind with
      | .number =>
        let _ ← eat .number
        let tree ← numeral token
        step .reduce ("Created number node: " ++ shownNumber tree) none
        return tree
      | .leftParenthesis =>
        step .process "Processing parenthesized expression" none
        let _ ← eat .leftParenthesis
        let tree ← expression calls
        let _ ← eat .rightParenthesis
        step .reduce "Completed parenthesized expression" none
        return tree
      | .endOfInput => throw (.syntactic .missingOperand token.position)
      | kind => throw (.syntactic (.strayToken kind token.text) token.position)

/-- A term: factors with `*` and `/` between them. -/
def term : Nat → Run (Tree Text)
  | 0 => throw .callDepth
  | calls + 1 => do
    step .process "Processing term" none
    let first ← factor calls
    let turns := (← get).unread.tokens.length
    chain "*/" (fun operator => "T → T " ++ operator ++ " F") (factor calls) turns first

/-- An expression: terms with `+` and `-` between them. -/
def expression : Nat → Run (Tree Text)
  | 0 => throw .callDepth
  | calls + 1 => do
    step .process "Processing expression" none
    let first ← term calls
    let turns := (← get).unread.tokens.length
    chain "+-" (fun operator => "E → E " ++ operator ++ " T") (term calls) turns first

end

/-- How many tokens of a stream a descent has left behind. -/
def index (tokens : List Token) (descent : Descent) : Nat :=
  tokens.length - descent.unread.tokens.length

/-- The descent over a whole stream: an expression, and then the end of input. -/
def whole : Run (Tree Text) := do
  let tree ← expression depthLimit
  let trailing ← current
  if trailing.isEnd then
    modify fun descent =>
      { descent with log := descent.log.record .accept "Parsing complete" ["E"] [] none }
    return tree
  else throw (.syntactic (.trailingToken trailing.kind trailing.text) trailing.position)

def parse (tokens : List Token) : Except Fault Parsed := do
  Token.checkStream tokens
  Grammar.checkNesting tokens Grammar.maxNesting
  let opening := StepLog.empty.record .process "Starting top-down parsing..." []
    (tokens.map Token.shown) none
  match whole (start tokens opening) with
  | .ok tree descent => return ⟨tree, descent.log.toList, .topDown⟩
  | .error fault _ => throw fault

end Descent

end Reckon
