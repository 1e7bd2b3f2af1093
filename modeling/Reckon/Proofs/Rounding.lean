import Mathlib.Algebra.Group.Nat.Defs
import Reckon.Double.Rounding

/-!
# Rounding a quotient

Rounding depends on a quotient only and not on the terms that it is written with, so equal quotients
are rounded to the same double. A magnitude is rounded to itself, what is less than half a unit to
zero, and what lies far above the greatest magnitude to an infinity.
-/

set_option autoImplicit false

namespace Reckon.Double

variable {factor : Nat}

theorem divideToEven_mul_left (positive : 0 < factor) (numerator denominator : Nat) :
    divideToEven (factor * numerator) (factor * denominator) =
      divideToEven numerator denominator := by
  have quotient : factor * numerator / (factor * denominator) = numerator / denominator :=
    Nat.mul_div_mul_left _ _ positive
  have remainder : factor * numerator % (factor * denominator) =
      factor * (numerator % denominator) := Nat.mul_mod_mul_left _ _ _
  have below : 2 * (factor * (numerator % denominator)) < factor * denominator ↔
      2 * (numerator % denominator) < denominator := by
    rw [Nat.mul_left_comm]
    exact Nat.mul_lt_mul_left positive
  have above : factor * denominator < 2 * (factor * (numerator % denominator)) ↔
      denominator < 2 * (numerator % denominator) := by
    rw [Nat.mul_left_comm]
    exact Nat.mul_lt_mul_left positive
  simp only [divideToEven, quotient, remainder, below, above]

theorem nearestCode_mul_left (positive : 0 < factor) (numerator denominator : Nat) :
    nearestCode (factor * numerator) (factor * denominator) =
      nearestCode numerator denominator := by
  simp only [nearestCode, Nat.mul_div_mul_left _ _ positive, Nat.mul_assoc,
    divideToEven_mul_left positive]

theorem ofUnits_mul_left (positive : 0 < factor) (negative : Bool) (numerator denominator : Nat) :
    ofUnits negative (factor * numerator) (factor * denominator) =
      ofUnits negative numerator denominator := by
  simp only [ofUnits, nearestCode_mul_left positive]

theorem ofRatio_mul_self (positive : 0 < factor) (value : Nat) :
    ofRatio (factor * value) factor = ofInt value := by
  have scaled := ofUnits_mul_left positive false (value * unitsPerOne) 1
  rw [Nat.mul_one] at scaled
  rw [ofRatio, Nat.mul_assoc, scaled, ofInt, Int.natAbs_natCast]
  rfl

/-- Equal quotients are rounded alike. -/
theorem ofUnits_eq_of_cross {numerator denominator numerator' denominator' : Nat}
    (positive : 0 < denominator) (positive' : 0 < denominator')
    (cross : numerator * denominator' = numerator' * denominator) (negative : Bool) :
    ofUnits negative numerator denominator = ofUnits negative numerator' denominator' := by
  calc ofUnits negative numerator denominator
      = ofUnits negative (denominator' * numerator) (denominator' * denominator) :=
        (ofUnits_mul_left positive' negative _ _).symm
    _ = ofUnits negative (denominator * numerator') (denominator * denominator') := by
        rw [Nat.mul_comm denominator', cross, Nat.mul_comm denominator', Nat.mul_comm numerator']
    _ = ofUnits negative numerator' denominator' := ofUnits_mul_left positive negative _ _

theorem divideToEven_mul_self {factor : Nat} (positive : 0 < factor) (quotient : Nat) :
    divideToEven (quotient * factor) factor = quotient := by
  simp [divideToEven, Nat.mul_div_cancel _ positive, positive]

theorem log2_unitsOfCode {code : Nat} (normal : codesPerSpacing ≤ code) :
    (unitsOfCode code).log2 = 52 + (code / codesPerSpacing - 1) := by
  have below := Nat.mod_lt code (show 0 < codesPerSpacing by decide)
  have spacing : 0 < 2 ^ (code / codesPerSpacing - 1) := Nat.two_pow_pos _
  have some : codesPerSpacing + code % codesPerSpacing ≠ 0 := Nat.ne_of_gt (by omega)
  rw [unitsOfCode, if_neg (Nat.not_lt.mpr normal), Nat.pow_eq,
    Nat.log2_eq_iff (Nat.mul_ne_zero some (Nat.ne_of_gt spacing))]
  constructor
  · rw [Nat.pow_add]
    exact Nat.mul_le_mul_right _ (Nat.le_add_right codesPerSpacing _)
  · rw [Nat.add_right_comm, Nat.pow_add]
    refine Nat.mul_lt_mul_of_pos_right ?_ spacing
    show codesPerSpacing + code % codesPerSpacing < 2 * codesPerSpacing
    omega

theorem nearestCode_unitsOfCode (code : Nat) : nearestCode (unitsOfCode code) 1 = code := by
  rw [nearestCode, Nat.div_one, Nat.one_mul]
  rcases Nat.lt_or_ge code codesPerSpacing with subnormal | normal
  · have units : unitsOfCode code = code := if_pos subnormal
    have short : code.log2 - 52 = 0 := by
      rcases Nat.eq_zero_or_pos code with rfl | positive
      · decide
      · have below : code.log2 < 52 := (Nat.log2_lt (Nat.ne_of_gt positive)).mpr subnormal
        omega
    have exact := divideToEven_mul_self Nat.one_pos code
    rw [Nat.mul_one] at exact
    rw [units, short, Nat.zero_mul, Nat.zero_add]
    exact exact
  · have shift : (unitsOfCode code).log2 - 52 = code / codesPerSpacing - 1 := by
      rw [log2_unitsOfCode normal, Nat.add_sub_cancel_left]
    have positive : 0 < Nat.pow 2 (code / codesPerSpacing - 1) := Nat.two_pow_pos _
    have some : 1 ≤ code / codesPerSpacing := (Nat.one_le_div_iff (by decide)).mpr normal
    rw [shift, unitsOfCode, if_neg (Nat.not_lt.mpr normal), divideToEven_mul_self positive]
    calc (code / codesPerSpacing - 1) * codesPerSpacing +
          (codesPerSpacing + code % codesPerSpacing)
        = (code / codesPerSpacing - 1 + 1) * codesPerSpacing + code % codesPerSpacing := by
          rw [Nat.add_mul, Nat.one_mul, Nat.add_assoc]
      _ = code / codesPerSpacing * codesPerSpacing + code % codesPerSpacing := by
          rw [Nat.sub_add_cancel some]
      _ = code := Nat.div_add_mod' code codesPerSpacing

theorem ofUnits_unitsOfCode (negative : Bool) (code : Fin finiteCodes) :
    ofUnits negative (unitsOfCode code) 1 = .finite negative code := by
  rw [ofUnits, nearestCode_unitsOfCode]
  exact dif_pos code.isLt

theorem ofUnits_of_small {numerator denominator : Nat} (small : 2 * numerator < denominator)
    (negative : Bool) : ofUnits negative numerator denominator = zero negative := by
  have quotient : numerator / denominator = 0 := Nat.div_eq_of_lt (by omega)
  have remainder : numerator % denominator = numerator := Nat.mod_eq_of_lt (by omega)
  have code : nearestCode numerator denominator = 0 := by
    simp [nearestCode, divideToEven, quotient, remainder, small]
  simp [ofUnits, code, zero]

theorem ofUnits_of_large {units exponent : Nat} (large : 2 ^ exponent ≤ units)
    (far : 2099 ≤ exponent) (negative : Bool) : ofUnits negative units 1 = .infinite negative := by
  have some : units ≠ 0 := Nat.ne_of_gt (Nat.lt_of_lt_of_le (Nat.two_pow_pos _) large)
  have shift : 2047 ≤ units.log2 - 52 := by
    have log := (Nat.le_log2 some).mpr large
    omega
  have beyond : finiteCodes ≤ nearestCode units 1 := by
    rw [nearestCode, Nat.div_one]
    exact Nat.le_add_right_of_le (Nat.mul_le_mul_right codesPerSpacing shift)
  exact dif_neg (Nat.not_lt.mpr beyond)

end Reckon.Double
