import Reckon.Proofs.Descent.Levels
import Reckon.Proofs.Pairings

/-!
# Watched descents

A watched descent notes, whenever one of the three functions is called, this call and the ones
around it that have not returned. Calls only pile up when a function is called, so the notes show
them at their most. Apart from its notes a watched descent is the descent that it watches: each part
of it goes the same way, and forgetting the notes gives what the descent comes to.
-/

set_option autoImplicit false

namespace Reckon

structure Watched where
  descent : Descent
  /-- For each call so far the active calls from the innermost to the outermost, latest first. -/
  moments : List (List Nonterminal)

namespace Watched

abbrev Run (α : Type) := EStateM Fault Watched α

def start (tokens : List Token) (log : StepLog) : Watched :=
  ⟨Descent.start tokens log, []⟩

def tokens (watched : Watched) : List Token :=
  watched.descent.unread.tokens

/-- A part of a descent that calls none of the functions. -/
def apart {α : Type} (run : Descent.Run α) : Run α := fun watched =>
  match run watched.descent with
  | .ok value after => .ok value { watched with descent := after }
  | .error fault after => .error fault { watched with descent := after }

def enter (active : List Nonterminal) : Run Unit :=
  modify fun watched => { watched with moments := active :: watched.moments }

def chain (operators : Text) (rule : Text → Text) (operand : Run (Tree Text)) :
    Nat → Tree Text → Run (Tree Text)
  | 0, left => return left
  | turns + 1, left => do
    if ← apart (Descent.atOperator operators) then
      let operator := (← apart (Descent.eat .operator)).text
      let right ← operand
      apart (Descent.step .reduce ("Created binary operation: " ++ operator) (some (rule operator)))
      chain operators rule operand turns (.binary operator left right)
    else return left

/-- The body of a level, around the calls for its operands. -/
def level (level : Descent.Level) (operand : Run (Tree Text)) : Run (Tree Text) := do
  apart (Descent.step .process level.opening none)
  let first ← operand
  let turns := (← get).tokens.length
  chain level.operators level.rule operand turns first

/-- The body of a factor, around the calls for what stands behind a sign or a parenthesis. -/
def factor (operand inner : Run (Tree Text)) : Run (Tree Text) := do
  let token ← apart Descent.current
  apart (Descent.step .process
    ("Processing factor: " ++ if token.text.isEmpty then endMark else token.text) none)
  if ← apart (Descent.atOperator "+-") then
    let _ ← apart (Descent.eat .operator)
    let tree ← operand
    apart (Descent.step .reduce ("Created unary operation: " ++ token.text) none)
    return .unary token.text tree
  else
    match token.kind with
    | .number =>
      let _ ← apart (Descent.eat .number)
      let tree ← apart (Descent.numeral token)
      apart (Descent.step .reduce ("Created number node: " ++ Descent.shownNumber tree) none)
      return tree
    | .leftParenthesis =>
      apart (Descent.step .process "Processing parenthesized expression" none)
      let _ ← apart (Descent.eat .leftParenthesis)
      let tree ← inner
      let _ ← apart (Descent.eat .rightParenthesis)
      apart (Descent.step .reduce "Completed parenthesized expression" none)
      return tree
    | .endOfInput => throw (.syntactic .missingOperand token.position)
    | kind => throw (.syntactic (.strayToken kind token.text) token.position)

/-- The function for a nonterminal, called while other calls are active. -/
def parser : Nat → Nonterminal → List Nonterminal → Run (Tree Text)
  | 0, _, _ => throw .callDepth
  | calls + 1, nonterminal, active => do
    enter (nonterminal :: active)
    match nonterminal with
    | .expression => level .sums (parser calls .term (nonterminal :: active))
    | .term => level .products (parser calls .factor (nonterminal :: active))
    | .factor =>
      factor (parser calls .factor (nonterminal :: active))
        (parser calls .expression (nonterminal :: active))

def forget {α : Type} : EStateM.Result Fault Watched α → EStateM.Result Fault Descent α
  | .ok value after => .ok value after.descent
  | .error fault after => .error fault after.descent

def momentsOf {α : Type} : EStateM.Result Fault Watched α → List (List Nonterminal)
  | .ok _ after => after.moments
  | .error _ after => after.moments

section Forgetting

variable {α : Type}

/-- A watched run and the run that it watches. -/
abbrev Watches (run : Run α) (run' : Descent.Run α) : Prop :=
  PairedRuns (fun watched descent => watched.descent = descent) Eq Eq run run'

theorem Watches.forget_eq {run : Run α} {run' : Descent.Run α} (watches : Watches run run')
    (watched : Watched) : forget (run watched) = run' watched.descent := by
  have ends := watches watched watched.descent rfl
  generalize run watched = result at ends
  generalize run' watched.descent = result' at ends
  cases ends with
  | ok same states => rw [forget, same, states]
  | error same states => rw [forget, same, states]

theorem apart_watches (run : Descent.Run α) : Watches (apart run) run := by
  rintro watched _ rfl
  unfold apart
  cases run watched.descent with
  | ok value after => exact .ok rfl rfl
  | error fault after => exact .error rfl rfl

theorem enter_watches {active : List Nonterminal} {run : Run α} {run' : Descent.Run α}
    (watches : Watches run run') : Watches (enter active >>= fun _ => run) run' := by
  intro watched descent same
  exact watches { watched with moments := active :: watched.moments } descent same

theorem chain_watches {operators : Text} {rule : Text → Text} {operand : Run (Tree Text)}
    {operand' : Descent.Run (Tree Text)} (operandWatches : Watches operand operand') (turns : Nat)
    (left : Tree Text) :
    Watches (chain operators rule operand turns left)
      (Descent.chain operators rule operand' turns left) := by
  induction turns generalizing left with
  | zero => exact .of_pure rfl
  | succ turns ih =>
      refine .bind_same (apart_watches _) fun continues => ?_
      split
      · refine .bind_same (apart_watches _) fun token => .bind_same operandWatches fun right => ?_
        exact .bind_same (apart_watches _) fun _ => ih _
      · exact .of_pure rfl

theorem level_watches (level : Descent.Level) {calls : Nat} {operand : Run (Tree Text)}
    (operandWatches : Watches operand (Descent.parser level.operand calls)) :
    Watches (Watched.level level operand) (Descent.parser level.whole (calls + 1)) := by
  rw [level.parser_whole]
  refine .bind_same (apart_watches _) fun _ => .bind_same operandWatches fun first => ?_
  refine .bind .of_get ?_
  rintro watched _ rfl
  exact chain_watches operandWatches _ first

theorem factor_watches {calls : Nat} {operand inner : Run (Tree Text)}
    (operandWatches : Watches operand (Descent.factor calls))
    (innerWatches : Watches inner (Descent.expression calls)) :
    Watches (factor operand inner) (Descent.factor (calls + 1)) := by
  rw [Descent.factor]
  refine .bind_same (apart_watches _) fun token => .bind_same (apart_watches _) fun _ => ?_
  refine .bind_same (apart_watches _) fun signed => ?_
  split
  · refine .bind_same (apart_watches _) fun _ => .bind_same operandWatches fun tree => ?_
    exact .bind_same (apart_watches _) fun _ => .of_pure rfl
  · cases token.kind with
    | number =>
        refine .bind_same (apart_watches _) fun _ => .bind_same (apart_watches _) fun tree => ?_
        exact .bind_same (apart_watches _) fun _ => .of_pure rfl
    | leftParenthesis =>
        refine .bind_same (apart_watches _) fun _ => .bind_same (apart_watches _) fun _ => ?_
        refine .bind_same innerWatches fun tree => .bind_same (apart_watches _) fun _ => ?_
        exact .bind_same (apart_watches _) fun _ => .of_pure rfl
    | operator => exact .of_throw rfl
    | rightParenthesis => exact .of_throw rfl
    | endOfInput => exact .of_throw rfl

/-- Watching the calls changes nothing but the notes. -/
theorem parser_watches (calls : Nat) (nonterminal : Nonterminal) (active : List Nonterminal) :
    Watches (parser calls nonterminal active) (Descent.parser nonterminal calls) := by
  induction calls generalizing nonterminal active with
  | zero => cases nonterminal <;> exact .of_throw rfl
  | succ calls ih =>
      cases nonterminal with
      | expression => exact enter_watches (level_watches .sums (ih .term _))
      | term => exact enter_watches (level_watches .products (ih .factor _))
      | factor => exact enter_watches (factor_watches (ih .factor _) (ih .expression _))

end Forgetting

/-- The descent for an expression from the start of a stream, watched. -/
def watch (calls : Nat) (tokens : List Token) (log : StepLog) :
    EStateM.Result Fault Watched (Tree Text) :=
  parser calls .expression [] (start tokens log)

theorem forget_watch (calls : Nat) (tokens : List Token) (log : StepLog) :
    forget (watch calls tokens log) = Descent.expression calls (Descent.start tokens log) :=
  (parser_watches calls .expression []).forget_eq (start tokens log)

end Watched

end Reckon
