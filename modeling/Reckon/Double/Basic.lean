/-!
# Double-precision numbers

A double is not a number, an infinity, or a sign with one of the finite magnitudes. The finite
magnitudes are numbered in increasing order: magnitude `code` is the `code`-th multiple of the least
positive one, the *unit* `2 ^ -1074`, that the format can hold. Two doubles are equal as values of
the type exactly when they have the same sign and magnitude, so `0` and `-0` differ and all the
not-a-number patterns are one value; `same` is the comparison of arithmetic.
-/

set_option autoImplicit false

namespace Reckon

/-- How many magnitudes share a spacing: `2 ^ 52`. -/
abbrev codesPerSpacing : Nat := 4503599627370496

abbrev finiteCodes : Nat := 2047 * codesPerSpacing

inductive Double where
  | nan
  | infinite (negative : Bool)
  | finite (negative : Bool) (code : Fin finiteCodes)
deriving DecidableEq

namespace Double

def unitsPerOne : Nat := Nat.pow 2 1074

/-- How many units a magnitude is: below `2 ^ 53` every multiple of the unit is a magnitude, and the
spacing doubles with every further `2 ^ 52` codes. -/
def unitsOfCode (code : Nat) : Nat :=
  if code < codesPerSpacing then code
  else (codesPerSpacing + code % codesPerSpacing) * Nat.pow 2 (code / codesPerSpacing - 1)

def zero (negative : Bool) : Double :=
  .finite negative ⟨0, by decide⟩

instance : Inhabited Double := ⟨zero false⟩

def isFinite : Double → Bool
  | .finite _ _ => true
  | _ => false

def isZero : Double → Bool
  | .finite _ code => code.val == 0
  | _ => false

/-- The sign of a double; not-a-number counts as positive. -/
def isNegative : Double → Bool
  | .nan => false
  | .infinite negative => negative
  | .finite negative _ => negative

/-- A finite double as a signed count of units. -/
def signedUnits (negative : Bool) (code : Nat) : Int :=
  if negative then -(unitsOfCode code : Int) else (unitsOfCode code : Int)

/-- Equality of arithmetic: the zeros are the same, and not-a-number is the same as nothing. -/
def same (left right : Double) : Bool :=
  match left, right with
  | .nan, _ => false
  | _, .nan => false
  | left, right => (left.isZero && right.isZero) || left == right

end Double

end Reckon
