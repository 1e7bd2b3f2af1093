import Reckon.Text.Numeral
import Reckon.Token
import Reckon.Tree

/-!
# Grammar rules

A rule folds the symbols of its right-hand side into its left-hand side, and its action makes one
tree of the items beside those symbols. `Rule.table` is the grammar of expressions. Its rules are
tried in order and the first match wins; the longer right-hand sides of a symbol come before its
unit rule, so `T * F` is folded before an `F` becomes a `T`.
-/

set_option autoImplicit false

namespace Reckon

/-- What stands beside a grammar symbol on a stack. -/
inductive Item where
  | token (token : Token)
  | node (tree : Tree Text)
deriving DecidableEq

/-- The number of a numeral. Its value must be finite. -/
def Token.number (token : Token) : Except Fault (Tree Text) :=
  match Text.readDouble? token.text with
  | none => .error (.unreadableNumeral token.text)
  | some value =>
    if value.isFinite then .ok (.number value)
    else .error (.syntactic (.unboundedNumeral token.text) token.position)

namespace Item

/-- The tree of an item; a token is none. -/
def tree : Item → Except Fault (Tree Text)
  | .node made => .ok made
  | .token read => .error (.syntactic (.notAnExpression read.text) read.position)

end Item

/-- How a rule makes one item of the items it folds, which are given from bottom to top. -/
structure Action where
  apply : List Item → Except Fault Item

namespace Action

def child (children : List Item) (place : Nat) : Except Fault Item :=
  match children[place]? with
  | some item => .ok item
  | none => .error .outOfRange

/-- The first item, read as a numeral when it is a token. -/
def number : Action where
  apply children := do
    match ← child children 0 with
    | .token token => return .node (← token.number)
    | item => return item

/-- The tree of the second item. -/
def group : Action where
  apply children := do return .node (← (← child children 1).tree)

/-- The tree of the first item. -/
def pass : Action where
  apply children := do return .node (← (← child children 0).tree)

/-- A sign on the second item. -/
def unary (operator : Text) : Action where
  apply children := do return .node (.unary operator (← (← child children 1).tree))

/-- An operation on the first and third item. -/
def binary (operator : Text) : Action where
  apply children := do
    let left ← (← child children 0).tree
    let right ← (← child children 2).tree
    return .node (.binary operator left right)

/-- The first item as it is. -/
def first : Action where
  apply children := child children 0

end Action

structure Rule where
  lhs : Text
  rhs : List Text
  action : Action

namespace Rule

def label (rule : Rule) : Text :=
  rule.lhs ++ " → " ++ Text.intercalate " " rule.rhs

def table : List Rule :=
  [⟨"F", ["NUMBER"], .number⟩,
   ⟨"F", ["(", "E", ")"], .group⟩,
   ⟨"F", ["u+", "F"], .unary "+"⟩,
   ⟨"F", ["u-", "F"], .unary "-"⟩,
   ⟨"T", ["T", "*", "F"], .binary "*"⟩,
   ⟨"T", ["T", "/", "F"], .binary "/"⟩,
   ⟨"T", ["F"], .pass⟩,
   ⟨"E", ["E", "+", "T"], .binary "+"⟩,
   ⟨"E", ["E", "-", "T"], .binary "-"⟩,
   ⟨"E", ["T"], .pass⟩]

end Rule

/-- The part of a stack that `width` symbols cover, topmost first. A width of zero stands for the
whole stack, and so does one that the stack does not have. -/
def covered {α : Type} (width : Nat) (stack : List α) : List α :=
  if width = 0 then stack else stack.take width

/-- The part of a stack below what `width` symbols cover. -/
def uncovered {α : Type} (width : Nat) (stack : List α) : List α :=
  if width = 0 then [] else stack.drop width

end Reckon
