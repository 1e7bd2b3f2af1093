import Reckon.Double.Basic

/-!
# Rounding to the nearest double

Every operation and every reader forms its exact result as a quotient of two natural numbers of
units and rounds it here, once: to the nearest double, of two equally near ones to the one with the
even code, and to an infinity from half a spacing above the greatest finite magnitude.
-/

set_option autoImplicit false

namespace Reckon.Double

/-- The integer nearest to a quotient; halfway between two it is the even one. -/
def divideToEven (numerator denominator : Nat) : Nat :=
  let quotient := numerator / denominator
  let remainder := numerator % denominator
  if 2 * remainder < denominator then quotient
  else if denominator < 2 * remainder then quotient + 1
  else quotient + quotient % 2

/-- The code of the magnitude nearest to `numerator / denominator` units. The spacing of magnitudes
around the quotient is `2 ^ shift` units, and codes go up by `2 ^ 52` for each doubling of it. -/
def nearestCode (numerator denominator : Nat) : Nat :=
  let shift := (numerator / denominator).log2 - 52
  shift * codesPerSpacing + divideToEven numerator (denominator * Nat.pow 2 shift)

/-- The double with a sign that is nearest to `numerator / denominator` units. -/
def ofUnits (negative : Bool) (numerator denominator : Nat) : Double :=
  let code := nearestCode numerator denominator
  if bounded : code < finiteCodes then .finite negative ⟨code, bounded⟩ else .infinite negative

def ofRatio (numerator denominator : Nat) : Double :=
  ofUnits false (numerator * unitsPerOne) denominator

def ofInt (value : Int) : Double :=
  ofUnits (value < 0) (value.natAbs * unitsPerOne) 1

/-- The double nearest to `digits * 10 ^ exponent`. Exponents that leave the range of doubles by far
are settled without forming the power. -/
def ofDecimal (negative : Bool) (digits : Nat) (exponent : Int) : Double :=
  if digits = 0 then zero negative
  else if 400 < exponent then .infinite negative
  else if exponent + digits.log2 + 1 < -400 then zero negative
  else if 0 ≤ exponent then ofUnits negative (digits * Nat.pow 10 exponent.toNat * unitsPerOne) 1
  else ofUnits negative (digits * unitsPerOne) (Nat.pow 10 (-exponent).toNat)

end Reckon.Double
