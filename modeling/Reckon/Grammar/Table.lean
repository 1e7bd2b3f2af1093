import Reckon.Grammar.Rule

/-!
# Choosing a rule

When a stack can be folded, and which mark a sign gets. A symbol may be made only when the next
token can follow it, and before the end of input always. A plus or minus is a prefix sign when the
stack is empty or its top cannot end an operand.
-/

set_option autoImplicit false

namespace Reckon.Grammar

/-- The tokens that may follow a symbol; symbols without an entry may be followed by any. -/
def follow : List (Text × List Text) :=
  [("E", ["+", "-", ")", endMark]),
   ("T", ["+", "-", "*", "/", ")", endMark]),
   ("F", ["+", "-", "*", "/", ")", endMark])]

/-- The symbols after which a plus or minus is a sign. -/
def signContext : List Text :=
  ["(", "+", "-", "*", "/", "u+", "u-"]

def canReduce (lhs lookahead : Text) : Bool :=
  lookahead == endMark
    || match follow.lookup lhs with
      | none => true
      | some allowed => allowed.contains lookahead

/-- Whether the top of a stack, read downwards, is the right-hand side of a rule. -/
def matchesTop (rule : Rule) (stack : List Text) : Bool :=
  rule.rhs.length ≤ stack.length && covered rule.rhs.length stack == rule.rhs.reverse

/-- The first rule that matches the top of a stack, read downwards, and may be used before a
token. -/
def findReduction? (rules : List Rule) (stack : List Text) (lookahead : Text) : Option Rule :=
  rules.find? fun rule => matchesTop rule stack && canReduce rule.lhs lookahead

def isSignSymbol (symbol : Text) : Bool :=
  symbol == "+" || symbol == "-"

/-- The symbol of a token on top of a stack, where a prefix sign is told from an operator. -/
def shiftSymbol (token : Token) (top? : Option Text) : Text :=
  if isSignSymbol token.symbol && top?.all signContext.contains then
    if token.symbol == "+" then "u+" else "u-"
  else token.symbol

end Reckon.Grammar
