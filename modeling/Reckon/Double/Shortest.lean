import Reckon.Double.Rounding

/-!
# Shortest decimals

The decimal with the fewest digits that reads back as a given double. For one digit, two digits and
so on, the two neighbours of the exact value on the grid of decimals with that many digits are
tried, the nearer one first and the even one on a tie; the first that reads back is taken. Reading
back is `ofDecimal` itself, so whatever the search takes reads back.
-/

set_option autoImplicit false

namespace Reckon.Double

structure Decimal where
  digits : Nat
  exponent : Int
deriving DecidableEq

/-- The power of ten just above `numerator / denominator`, for a quotient below one: minus the
number of zeros after its point. -/
def leadingZeros (numerator denominator : Nat) : Nat → Nat
  | 0 => 0
  | bound + 1 =>
    if denominator ≤ numerator * 10 then 0
    else leadingZeros (numerator * 10) denominator bound + 1

/-- The least power of ten above a count of units. -/
def magnitudeOf (units : Nat) : Int :=
  if unitsPerOne ≤ units then (Nat.toDigits 10 (units / unitsPerOne)).length
  else -(leadingZeros units unitsPerOne 330 : Int)

/-- The two neighbours of `numerator / denominator` among the integers, the nearer one first. -/
def neighbours (numerator denominator : Nat) : List Nat :=
  let floor := numerator / denominator
  let nearest := divideToEven numerator denominator
  [nearest, if nearest = floor then floor + 1 else floor]

/-- The candidates with `width` digits for a count of units below `10 ^ magnitude`. -/
def candidates (units : Nat) (magnitude : Int) (width : Nat) : List Decimal :=
  let exponent := magnitude - width
  let grid :=
    if 0 ≤ exponent then neighbours units (unitsPerOne * Nat.pow 10 exponent.toNat)
    else neighbours (units * Nat.pow 10 (-exponent).toNat) unitsPerOne
  grid.map fun digits => ⟨digits, exponent⟩

def exactDecimal (units : Nat) : Decimal :=
  ⟨units * Nat.pow 5 1074, -1074⟩

def shortest (code : Fin finiteCodes) : Decimal :=
  let units := unitsOfCode code
  let magnitude := magnitudeOf units
  let tried := (List.range 17).flatMap fun width => candidates units magnitude (width + 1)
  let readsBack := fun (decimal : Decimal) =>
    ofDecimal false decimal.digits decimal.exponent == .finite false code
  (tried.find? readsBack).getD (exactDecimal units)

end Reckon.Double
