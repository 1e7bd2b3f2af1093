import Reckon.Fault
import Reckon.StepLog
import Reckon.Text.Blank
import Reckon.Text.Numeral
import Reckon.Tree

/-!
# Strategies

The two ways of parsing and their names, and what a parser returns.
-/

set_option autoImplicit false

namespace Reckon

inductive Strategy where
  | topDown
  | bottomUp
deriving DecidableEq, Repr

namespace Strategy

def name : Strategy → String
  | .topDown => "top-down"
  | .bottomUp => "bottom-up"

def all : List Strategy :=
  [.topDown, .bottomUp]

def names : Strategy → List String
  | .topDown => ["top-down", "td", "rd"]
  | .bottomUp => ["bottom-up", "bu", "sr"]

/-- A name without blanks around it, in lower case and with dashes for underscores. Capitals beyond
ASCII stay as they are, since no name has a letter that one of them lowers to. -/
def normalizeName (name : Text) : String :=
  String.ofList ((Text.trimmed name.characters).map fun character =>
    if character == '_' then '-' else Text.toAsciiLower character)

def ofName (name : Text) : Except Fault Strategy :=
  match all.find? fun strategy => strategy.names.contains (normalizeName name) with
  | some strategy => .ok strategy
  | none => .error (.unknownStrategy name)

end Strategy

/-- What a parser returns for an expression: its tree, what the parser did, and how it parsed. -/
structure Parsed where
  tree : Tree Text
  steps : List Step
  strategy : Strategy

end Reckon
