import Reckon.Text

/-!
# Step logs

What a parser did, in order. A step has its index in the log, an action, the grammar symbols on the
stack, the texts still to be read, a description and, for a construction by a grammar rule, that
rule.
-/

set_option autoImplicit false

namespace Reckon

inductive StepAction where
  | shift
  | reduce
  | accept
  | process
deriving DecidableEq, Repr

namespace StepAction

def name : StepAction → String
  | .shift => "shift"
  | .reduce => "reduce"
  | .accept => "accept"
  | .process => "process"

def all : List StepAction :=
  [.shift, .reduce, .accept, .process]

def ofName? (name : String) : Option StepAction :=
  all.find? fun action => action.name == name

end StepAction

structure Step where
  index : Int
  action : StepAction
  stack : List Text
  remaining : List Text
  description : Text
  rule : Option Text
deriving DecidableEq

def padStart (width : Nat) (text : String) : String :=
  String.ofList (List.replicate (width - text.length) ' ') ++ text

def padEnd (width : Nat) (text : String) : String :=
  text ++ String.ofList (List.replicate (width - text.length) ' ')

/-- Texts with spaces between them, or a dash when nothing would show. -/
def joined (texts : List Text) : Text :=
  let line := Text.intercalate " " texts
  if line.isEmpty then "-" else line

def Step.line (step : Step) : Text :=
  let rule : Text :=
    match step.rule with
    | some rule => if rule.isEmpty then "" else " [" ++ rule ++ "]"
    | none => ""
  padStart 3 (toString step.index) ++ " " ++ padEnd 7 step.action.name ++ " stack="
    ++ joined step.stack ++ " input=" ++ joined step.remaining ++ rule ++ " " ++ step.description

def countActions (steps : List Step) (action : StepAction) : Nat :=
  steps.countP fun step => step.action == action

structure StepLog where
  steps : Array Step

namespace StepLog

def empty : StepLog := ⟨#[]⟩

def toList (log : StepLog) : List Step :=
  log.steps.toList

def size (log : StepLog) : Nat :=
  log.steps.size

def next (log : StepLog) (action : StepAction) (description : Text)
    (stack remaining : List Text) (rule : Option Text) : Step :=
  ⟨log.size, action, stack, remaining, description, rule⟩

/-- The log with one more step, which gets the next index. -/
def record (log : StepLog) (action : StepAction) (description : Text)
    (stack remaining : List Text) (rule : Option Text) : StepLog :=
  ⟨log.steps.push (log.next action description stack remaining rule)⟩

@[simp] theorem toList_empty : empty.toList = [] := rfl

@[simp] theorem toList_record (log : StepLog) (action : StepAction) (description : Text)
    (stack remaining : List Text) (rule : Option Text) :
    (log.record action description stack remaining rule).toList =
      log.toList ++ [log.next action description stack remaining rule] := by
  simp [toList, record]

@[simp] theorem length_toList (log : StepLog) : log.toList.length = log.size := by
  simp [toList, size]

end StepLog

end Reckon
