import Reckon.Proofs.Displays

/-!
# Displays of integers

An integer below `10 ^ 16` in magnitude is displayed as its sign and its digits. Any other finite
double is displayed with a point or an exponent, so the form of a display tells which of the two it
shows, and in either form the display is read as the double itself.
-/

set_option autoImplicit false

namespace Reckon.Double

/-- The exact value of a double is the integer. Both zeros have the value zero. -/
def IsInteger : Double → Int → Prop
  | .finite negative code, integer => signedUnits negative code = integer * unitsPerOne
  | _, _ => False

def isPointOrExponentMark (character : Char) : Bool :=
  character == '.' || character == 'e' || character == 'E'

def hasPointOrExponent (characters : List Char) : Bool :=
  characters.any isPointOrExponentMark

section Forms

variable {digits front back : List Char} {point : Int}

theorem hasPointOrExponent_of_mem {mark : Char} (member : mark ∈ back)
    (isMark : isPointOrExponentMark mark = true) : hasPointOrExponent back = true :=
  List.any_eq_true.mpr ⟨mark, member, isMark⟩

theorem hasPointOrExponent_append :
    hasPointOrExponent (front ++ back) = (hasPointOrExponent front || hasPointOrExponent back) :=
  List.any_append

theorem hasPointOrExponent_positional : hasPointOrExponent (positional digits point) = true := by
  have member : '.' ∈ positional digits point := by
    unfold positional
    split_ifs <;> simp
  exact hasPointOrExponent_of_mem member (by decide)

theorem hasPointOrExponent_scientific : hasPointOrExponent (scientific digits point) = true := by
  have member : 'e' ∈ scientific digits point :=
    List.mem_append_right _ List.mem_cons_self
  exact hasPointOrExponent_of_mem member (by decide)

theorem hasPointOrExponent_textCharacters (negative : Bool) (code : Fin finiteCodes) :
    hasPointOrExponent (finite negative code).textCharacters = true := by
  rw [textCharacters, hasPointOrExponent_append, Bool.or_eq_true]
  right
  split_ifs with isZero
  · decide
  · unfold magnitudeText
    simp only
    split_ifs
    · exact hasPointOrExponent_positional
    · exact hasPointOrExponent_scientific

theorem isPointOrExponentMark_of_digit {digit : Char} (isDigit : Text.isAsciiDigit digit = true) :
    isPointOrExponentMark digit = false := by
  by_contra isMark
  rw [Bool.not_eq_false, isPointOrExponentMark, Bool.or_eq_true, Bool.or_eq_true, beq_iff_eq,
    beq_iff_eq, beq_iff_eq] at isMark
  rcases isMark with (rfl | rfl) | rfl <;> cases isDigit

theorem hasPointOrExponent_digits (negative : Bool)
    (areDigits : ∀ digit ∈ digits, Text.isAsciiDigit digit = true) :
    hasPointOrExponent (signText negative ++ digits) = false := by
  have sign : hasPointOrExponent (signText negative) = false := by
    cases negative <;> decide
  have noMark : ∀ digit ∈ digits, isPointOrExponentMark digit = false := fun digit member =>
    isPointOrExponentMark_of_digit (areDigits digit member)
  rw [hasPointOrExponent_append, sign, Bool.false_or, hasPointOrExponent, List.any_eq_false]
  simpa using noMark

end Forms

section Integers

variable {negative : Bool} {code : Fin finiteCodes}

theorem natAbs_signedUnits (negative : Bool) (code : Nat) :
    (signedUnits negative code).natAbs = unitsOfCode code := by
  cases negative <;> simp [signedUnits]

theorem isInteger_of_whole {magnitude : Nat}
    (whole : unitsOfCode code = magnitude * unitsPerOne) :
    (finite negative code).IsInteger (if negative then -magnitude else magnitude) := by
  have units : (unitsOfCode code : Int) = magnitude * unitsPerOne := by
    rw [whole, Int.natCast_mul]
  rw [IsInteger, signedUnits, units]
  split_ifs
  · rw [Int.neg_mul]
  · rfl

/-- What is displayed without a point are the doubles that are integers below the limit. -/
theorem exists_smallInteger?_iff :
    (∃ magnitude, smallInteger? code = some magnitude) ↔
      ∃ integer : Int, integer.natAbs < displayLimit ∧ (finite negative code).IsInteger integer := by
  constructor
  · rintro ⟨magnitude, small⟩
    obtain ⟨below, units⟩ := smallInteger?_eq_some_iff.mp small
    exact ⟨if negative then -magnitude else magnitude, by cases negative <;> simpa using below,
      isInteger_of_whole units⟩
  · rintro ⟨integer, below, isInteger⟩
    have units : unitsOfCode code = integer.natAbs * unitsPerOne := by
      rw [← natAbs_signedUnits negative, isInteger, Int.natAbs_mul, Int.natAbs_natCast]
    exact ⟨integer.natAbs, smallInteger?_eq_some_iff.mpr ⟨below, units⟩⟩

theorem hasPointOrExponent_display_eq_false_iff :
    hasPointOrExponent (finite negative code).displayCharacters = false ↔
      ∃ integer : Int, integer.natAbs < displayLimit ∧ (finite negative code).IsInteger integer := by
  rw [← exists_smallInteger?_iff, displayCharacters]
  cases small : smallInteger? code with
  | none => simp [hasPointOrExponent_textCharacters]
  | some magnitude =>
      have areDigits : ∀ digit ∈ decimalDigits magnitude, Text.isAsciiDigit digit = true :=
        fun _ => isAsciiDigit_of_mem_decimalDigits
      exact iff_of_true (hasPointOrExponent_digits negative areDigits) ⟨magnitude, rfl⟩

end Integers

/-- The display of a double is read as the double itself, with the sign of a zero and for the
infinities too, so no two doubles have a display in common. It has neither a point nor an exponent
exactly for the integers below `10 ^ 16` in magnitude and for what is no finite number. -/
theorem display_loses_nothing (value : Double) :
    Text.readDouble? value.display = some value ∧
      (∀ other : Double, value.display = other.display → value = other) ∧
      (hasPointOrExponent value.display.toList = false ↔
        (∃ integer : Int, integer.natAbs < 10 ^ 16 ∧ value.IsInteger integer) ∨
          value.isFinite = false) := by
  have characters : value.display.toList = value.displayCharacters := String.toList_ofList
  refine ⟨?_, fun other same => display_injective same, ?_⟩
  · rw [Text.ofString, characters, readDouble?_displayCharacters]
  · rw [characters]
    cases value with
    | nan => exact iff_of_true (by decide) (.inr rfl)
    | infinite negative => exact iff_of_true (by cases negative <;> decide) (.inr rfl)
    | finite negative code =>
        rw [hasPointOrExponent_display_eq_false_iff]
        simp [isFinite, displayLimit]

example : (ofInt 9999999999999998).display = "9999999999999998" ∧
    (ofInt 10000000000000000).display = "1e+16" := by decide +kernel

end Reckon.Double
