import Reckon.Parsing.Descent
import Reckon.Parsing.ShiftReduce

/-!
# Parsing

One entry for both strategies. They return the same tree for the same expression.
-/

set_option autoImplicit false

namespace Reckon

/-- Parses a stream with a strategy. The cap bounds the turns of the bottom-up parser only. -/
def Strategy.parse (strategy : Strategy) (tokens : List Token) (cap? : Option Int) :
    Except Fault Parsed :=
  match strategy with
  | .topDown => Descent.parse tokens
  | .bottomUp => ShiftReduce.parse tokens cap?

end Reckon
