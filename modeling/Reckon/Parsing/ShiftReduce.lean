import Reckon.Grammar.Nesting
import Reckon.Parsing.Strategy

/-!
# Shift and reduce

The bottom-up parser. A stack holds grammar symbols with the tokens and trees they stand for. Each
turn accepts, folds the top of the stack by the first rule that applies, or shifts the next token.
The machine works with any rule table and can be driven one operation at a time; a fault leaves the
state that it found, with the items of a fold already taken off the stack.
-/

set_option autoImplicit false

namespace Reckon

/-- A grammar symbol on the stack and what it stands for. -/
structure Frame where
  symbol : Text
  item : Item
deriving DecidableEq

/-- The state of the machine. The topmost frame comes first. -/
structure ShiftReduce where
  unread : Unread
  stack : List Frame
  log : StepLog

namespace ShiftReduce

/-- A part of a run: it returns a value or a fault, and the state it leaves. -/
abbrev Run (α : Type) := EStateM Fault ShiftReduce α

def start (tokens : List Token) (log : StepLog) : ShiftReduce :=
  ⟨Unread.ofTokens tokens, [], log⟩

def symbolsOf (stack : List Frame) : List Text :=
  (stack.map Frame.symbol).reverse

/-- The symbols on the stack from bottom to top. -/
def symbols (machine : ShiftReduce) : List Text :=
  symbolsOf machine.stack

/-- The items on the stack from bottom to top. -/
def items (machine : ShiftReduce) : List Item :=
  (machine.stack.map Frame.item).reverse

def cursor (tokens : List Token) (machine : ShiftReduce) : Nat :=
  tokens.length - machine.unread.tokens.length

def lookahead : Run Token := fun machine =>
  match machine.unread.tokens with
  | token :: _ => .ok token machine
  | [] => .error .outOfRange machine

/-- Whether the stack holds a finished expression and nothing is left to read. -/
def accepting : Run Bool := do
  match (← get).stack with
  | [frame] => if frame.symbol == "E" then return (← lookahead).isEnd else return false
  | _ => return false

/-- The rule that folds the top of the stack before the next token. -/
def shouldReduce (rules : List Rule) : Run (Option Rule) := do
  let token ← lookahead
  return Grammar.findReduction? rules ((← get).stack.map Frame.symbol) token.symbol

def shift : Run Unit := do
  let token ← lookahead
  modify fun machine =>
    let symbol := Grammar.shiftSymbol token (machine.stack.head?.map Frame.symbol)
    let stack := ⟨symbol, .token token⟩ :: machine.stack
    let unread := machine.unread.tail
    let description := "Shift token: " ++ token.text
    ⟨unread, stack, machine.log.record .shift description (symbolsOf stack) unread.texts none⟩

/-- Folds the top of the stack by a rule, whether or not the rule matches. -/
def reduce (rule : Rule) : Run Unit := do
  let folded := covered rule.rhs.length (← get).stack
  modify fun machine => { machine with stack := uncovered rule.rhs.length machine.stack }
  match rule.action.apply (folded.map Frame.item).reverse with
  | .error fault => throw fault
  | .ok item =>
    modify fun machine =>
      let stack := ⟨rule.lhs, item⟩ :: machine.stack
      let unread := machine.unread
      let description := "Reduce by rule: " ++ rule.label
      let log := machine.log.record .reduce description (symbolsOf stack) unread.texts rule.label
      ⟨unread, stack, log⟩

/-- Accepts: the item of the only frame is the tree of the input. -/
def accept : Run (Tree Text) := do
  modify fun machine =>
    { machine with
      log := machine.log.record .accept "Accept: Parsing complete" machine.symbols [] none }
  match (← get).items with
  | .node tree :: _ => return tree
  | .token token :: _ => throw (.syntactic (.notAnExpression token.text) token.position)
  | [] => throw .outOfRange

/-- One turn: the tree when the machine accepts, and nothing when it goes on. -/
def turn (rules : List Rule) : Run (Option (Tree Text)) := do
  if ← accepting then return some (← accept)
  else
    match ← shouldReduce rules with
    | some rule => reduce rule; return none
    | none =>
      let token ← lookahead
      if token.isEnd then throw (.syntactic .endsTooSoon token.position)
      else shift; return none

def run (rules : List Rule) : Nat → Run (Tree Text)
  | 0 => do throw (.syntactic .capReached (← lookahead).position)
  | cap + 1 => do
    match ← turn rules with
    | some tree => return tree
    | none => run rules cap

/-- The turns that are allowed when nobody says how many: eight for each token, and a thousand at
least. -/
def defaultCap (tokenCount : Int) : Int :=
  max 1000 (8 * tokenCount)

def parseWith (rules : List Rule) (tokens : List Token) (cap? : Option Int) :
    Except Fault Parsed := do
  Token.checkStream tokens
  Grammar.checkNesting tokens Grammar.maxNesting
  let cap := cap?.getD (defaultCap tokens.length)
  let opening := StepLog.empty.record .process "Starting bottom-up parsing..." []
    (tokens.map Token.shown) none
  match run rules cap.toNat (start tokens opening) with
  | .ok tree machine => return ⟨tree, machine.log.toList, .bottomUp⟩
  | .error fault _ => throw fault

def parse (tokens : List Token) (cap? : Option Int) : Except Fault Parsed :=
  parseWith Rule.table tokens cap?

end ShiftReduce

end Reckon
