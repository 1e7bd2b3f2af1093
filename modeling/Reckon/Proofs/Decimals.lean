import Mathlib.Tactic.Ring
import Mathlib.Tactic.SplitIfs
import Reckon.Double.Shortest
import Reckon.Proofs.Rounding

/-!
# Rounding decimals

A decimal is rounded to a double as the exact quotient that it is, so zeros at the end of its digits
may be moved into its exponent. The shortest decimal of a magnitude is rounded to that magnitude.
-/

set_option autoImplicit false

namespace Reckon.Double

/-- The double nearest to `digits * 10 ^ exponent`, rounded whatever the exponent is. -/
def roundDecimal (negative : Bool) (digits : Nat) (exponent : Int) : Double :=
  ofUnits negative (digits * 10 ^ exponent.toNat * unitsPerOne) (10 ^ (-exponent).toNat)

theorem two_pow_le_ten_pow (exponent : Nat) : 2 ^ (3 * exponent) ≤ 10 ^ exponent := by
  rw [Nat.pow_mul]
  exact Nat.pow_le_pow_left (by decide) exponent

/-- The number of units to one as a power whose exponent stays a variable, so that nothing works the
power out. -/
theorem exists_unitsPerOne_eq : ∃ places : Nat, unitsPerOne = 2 ^ places ∧ places = 1074 := by
  unfold unitsPerOne
  generalize 1074 = places
  exact ⟨places, rfl, rfl⟩

theorem roundDecimal_of_large {digits : Nat} (some : digits ≠ 0) {exponent : Int}
    (large : 400 < exponent) (negative : Bool) :
    roundDecimal negative digits exponent = .infinite negative := by
  obtain ⟨places, units, places_eq⟩ := exists_unitsPerOne_eq
  have noFraction : (-exponent).toNat = 0 := by omega
  rw [roundDecimal, noFraction, Nat.pow_zero, units]
  have large : 2 ^ (3 * exponent.toNat + places) ≤ digits * 10 ^ exponent.toNat * 2 ^ places := by
    rw [Nat.pow_add]
    refine Nat.mul_le_mul_right _ ((two_pow_le_ten_pow _).trans ?_)
    exact Nat.le_mul_of_pos_left _ (Nat.pos_of_ne_zero some)
  exact ofUnits_of_large large (by omega) negative

theorem roundDecimal_of_small {digits : Nat} {exponent : Int}
    (small : exponent + digits.log2 + 1 < -400) (negative : Bool) :
    roundDecimal negative digits exponent = zero negative := by
  obtain ⟨places, units, places_eq⟩ := exists_unitsPerOne_eq
  have noPower : exponent.toNat = 0 := by omega
  have below : digits * 2 ^ places < 2 ^ (digits.log2 + 1) * 2 ^ places :=
    Nat.mul_lt_mul_of_pos_right Nat.lt_log2_self (Nat.two_pow_pos places)
  rw [roundDecimal, noPower, Nat.pow_zero, Nat.mul_one, units]
  refine ofUnits_of_small ?_ negative
  calc 2 * (digits * 2 ^ places)
      < 2 * (2 ^ (digits.log2 + 1) * 2 ^ places) := Nat.mul_lt_mul_of_pos_left below Nat.two_pos
    _ = 2 ^ (digits.log2 + 1 + places + 1) := by
        rw [← Nat.pow_add, Nat.mul_comm, ← Nat.pow_succ]
    _ ≤ 2 ^ (3 * (-exponent).toNat) := Nat.pow_le_pow_right Nat.two_pos (by omega)
    _ ≤ 10 ^ (-exponent).toNat := two_pow_le_ten_pow _

/-- Settling exponents far out of range at once changes nothing. -/
theorem ofDecimal_eq (negative : Bool) (digits : Nat) (exponent : Int) :
    ofDecimal negative digits exponent = roundDecimal negative digits exponent := by
  unfold ofDecimal
  split_ifs with none large small whole
  · subst none
    rw [roundDecimal, Nat.zero_mul, Nat.zero_mul]
    refine (ofUnits_of_small ?_ negative).symm
    exact Nat.pow_pos (by decide)
  · exact (roundDecimal_of_large none large negative).symm
  · exact (roundDecimal_of_small small negative).symm
  · have noFraction : (-exponent).toNat = 0 := by omega
    rw [roundDecimal, noFraction]
    rfl
  · have noPower : exponent.toNat = 0 := by omega
    rw [roundDecimal, noPower, Nat.pow_zero, Nat.mul_one]
    rfl

/-- Zeros at the end of the digits count as powers of ten. -/
theorem roundDecimal_shift (negative : Bool) (digits zeros : Nat) (exponent : Int) :
    roundDecimal negative (digits * 10 ^ zeros) exponent =
      roundDecimal negative digits (exponent + zeros) := by
  refine ofUnits_eq_of_cross (Nat.pow_pos (by decide)) (Nat.pow_pos (by decide)) ?_ negative
  have powers : zeros + exponent.toNat + (-(exponent + zeros)).toNat =
      (exponent + zeros).toNat + (-exponent).toNat := by omega
  calc digits * 10 ^ zeros * 10 ^ exponent.toNat * unitsPerOne * 10 ^ (-(exponent + zeros)).toNat
      = digits * 10 ^ (zeros + exponent.toNat + (-(exponent + zeros)).toNat) * unitsPerOne := by
        rw [Nat.pow_add, Nat.pow_add]
        ring
    _ = digits * 10 ^ (exponent + zeros).toNat * unitsPerOne * 10 ^ (-exponent).toNat := by
        rw [powers, Nat.pow_add]
        ring

theorem roundDecimal_signed {digits : Nat} {exponent : Int} {code : Fin finiteCodes}
    (rounded : roundDecimal false digits exponent = .finite false code) (negative : Bool) :
    roundDecimal negative digits exponent = .finite negative code := by
  unfold roundDecimal ofUnits at rounded ⊢
  simp only at rounded ⊢
  split_ifs at rounded ⊢ with bounded
  cases rounded
  rfl

theorem roundDecimal_exactDecimal (code : Fin finiteCodes) :
    roundDecimal false (exactDecimal (unitsOfCode code)).digits
      (exactDecimal (unitsOfCode code)).exponent = .finite false code := by
  obtain ⟨places, units, places_eq⟩ := exists_unitsPerOne_eq
  rw [← ofUnits_unitsOfCode, exactDecimal, roundDecimal, units, ← places_eq]
  refine ofUnits_eq_of_cross (Nat.pow_pos (by decide)) Nat.one_pos ?_ false
  have powers : (10 : Nat) ^ places = 5 ^ places * 2 ^ places := Nat.mul_pow 5 2 places
  have noPower : (-1074 : Int).toNat = 0 := rfl
  have fraction : (-(-1074 : Int)).toNat = places := places_eq.symm
  simp only [noPower, fraction, powers, Nat.pow_eq]
  ring

/-- Whether the search finds a short decimal or ends with the exact one, the decimal reads back. -/
theorem roundDecimal_shortest (code : Fin finiteCodes) :
    roundDecimal false (shortest code).digits (shortest code).exponent = .finite false code := by
  unfold shortest
  extract_lets units magnitude tried readsBack
  cases found : tried.find? readsBack with
  | none => exact roundDecimal_exactDecimal code
  | some decimal =>
      have reads : readsBack decimal = true := List.find?_some found
      rw [← ofDecimal_eq]
      exact eq_of_beq reads

end Reckon.Double
