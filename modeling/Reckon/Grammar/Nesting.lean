import Reckon.Grammar.Table

/-!
# Nesting

How deep the factors of a token list are nested: the open parentheses and pending signs around each
of them. One pass over the tokens counts them. Both parsers make this pass first, so they refuse a
list that is nested too deeply at the same token.
-/

set_option autoImplicit false

namespace Reckon.Grammar

/-- The nesting that both parsers allow. -/
def maxNesting : Nat := 200

/-- What the pass knows after some tokens. -/
structure Nesting where
  /-- The parentheses and signs that are open. -/
  depth : Nat
  /-- The signs since the innermost open parenthesis that wait for their operand. -/
  signs : Nat
  /-- The signs that waited before each open parenthesis, innermost first. -/
  outer : List Nat
  /-- The symbol of the last token. -/
  previous : Option Text
deriving DecidableEq

namespace Nesting

/-- Before the first token. -/
def start : Nesting := ⟨0, 0, [], none⟩

def count (nesting : Nesting) (symbol : Text) : Nesting :=
  if isSignSymbol symbol && nesting.previous.all signContext.contains then
    { nesting with depth := nesting.depth + 1, signs := nesting.signs + 1 }
  else if symbol == "(" then
    { nesting with depth := nesting.depth + 1, signs := 0, outer := nesting.signs :: nesting.outer }
  else if symbol == "NUMBER" then
    { nesting with depth := nesting.depth - nesting.signs, signs := 0 }
  else if symbol == ")" then
    match nesting.outer with
    | signs :: outer =>
      { nesting with
        depth := nesting.depth - (nesting.signs + 1 + signs), signs := 0, outer := outer }
    | [] => nesting
  else nesting

/-- The pass after one more token. -/
def next (nesting : Nesting) (token : Token) : Nesting :=
  { nesting.count token.symbol with previous := some token.symbol }

/-- The pass over tokens, which stops at the first one that is nested too deeply. -/
def check (limit : Int) (nesting : Nesting) : List Token → Except Fault Unit
  | [] => .ok ()
  | token :: rest =>
    let counted := nesting.next token
    if limit < counted.depth then .error (.syntactic .tooDeep token.position)
    else check limit counted rest

end Nesting

/-- Refuses a token list with a factor inside more than `limit` parentheses and signs. -/
def checkNesting (tokens : List Token) (limit : Int) : Except Fault Unit :=
  Nesting.start.check limit tokens

end Reckon.Grammar
