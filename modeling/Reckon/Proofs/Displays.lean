import Mathlib.Data.List.Induction
import Reckon.Double.Text
import Reckon.Proofs.Decimals
import Reckon.Proofs.Numerals

/-!
# Displays of doubles

The texts that show a double are numerals, and reading one gives the double again. So a double has
no text in common with another one, neither its shortest text nor the form of trees and traces.
-/

set_option autoImplicit false

namespace Reckon.Double

open Text (IsVerbatim HasExponent decimalValue isAsciiDigit)

section Digits

theorem decimalValue_decimalDigits (value : Nat) : decimalValue (decimalDigits value) = value :=
  Nat.ofDigitChars_toDigits (by decide) (by decide)

theorem decimalDigits_ne_nil (value : Nat) : decimalDigits value ≠ [] :=
  Nat.toDigits_ne_nil

theorem isAsciiDigit_of_mem_decimalDigits {value : Nat} {digit : Char}
    (member : digit ∈ decimalDigits value) : isAsciiDigit digit = true := by
  have isDigit := Nat.isDigit_of_mem_toDigits (by decide) (by decide) member
  simpa [Char.isDigit, isAsciiDigit, Char.le_def] using isDigit

theorem decimalValue_append (front back : List Char) :
    decimalValue (front ++ back) = decimalValue front * 10 ^ back.length + decimalValue back := by
  induction back using List.reverseRecOn with
  | nil => simp [decimalValue]
  | append_singleton back digit ih =>
      have last : ∀ digits : List Char, decimalValue (digits ++ [digit]) =
          10 * decimalValue digits + Text.asciiDigitValue digit := by
        simp [decimalValue]
      rw [← List.append_assoc, last, last, ih, List.length_append, List.length_singleton,
        Nat.pow_succ]
      ring

theorem decimalValue_lt {digits : List Char} (areDigits : ∀ digit ∈ digits, isAsciiDigit digit = true) :
    decimalValue digits < 10 ^ digits.length := by
  induction digits using List.reverseRecOn with
  | nil => decide
  | append_singleton front last ih =>
      have isDigit := areDigits last (by simp)
      have most := (Text.code_of_isAsciiDigit isDigit).2
      have front := ih fun digit member => areDigits digit (List.mem_append_left _ member)
      have single : decimalValue [last] = last.toNat - 48 := by
        simp [decimalValue, Text.asciiDigitValue]
      rw [decimalValue_append, single, List.length_append, List.length_singleton,
        Nat.pow_succ]
      omega

theorem length_decimalDigits_le {digits : List Char} (nonempty : digits ≠ [])
    (areDigits : ∀ digit ∈ digits, isAsciiDigit digit = true) :
    (decimalDigits (decimalValue digits)).length ≤ digits.length :=
  (Nat.length_toDigits_le_iff (by decide) (List.length_pos_iff.mpr nonempty)).mpr
    (decimalValue_lt areDigits)

theorem head?_decimalDigits {value : Nat} (positive : value ≠ 0) :
    (decimalDigits value).head? ≠ some '0' := by
  induction value using Nat.strongRecOn with
  | ind value ih =>
      unfold decimalDigits at ih ⊢
      by_cases small : value < 10
      · have single : ∀ digit < 10, digit ≠ 0 → [digit.digitChar].head? ≠ some '0' := by decide
        rw [Nat.toDigits_of_lt_base small]
        exact single value small positive
      · have shorter : value / 10 < value := Nat.div_lt_self (by omega) (by decide)
        have front := ih (value / 10) shorter (by omega)
        rw [Nat.toDigits_of_base_le (by decide) (Nat.not_lt.mp small),
          List.head?_append_of_ne_nil _ Nat.toDigits_ne_nil]
        exact front

theorem decimalValue_zeros (zeros : Nat) : decimalValue (List.replicate zeros '0') = 0 := by
  induction zeros with
  | zero => rfl
  | succ zeros ih =>
      rw [List.replicate_succ', decimalValue_append, ih]
      simp [decimalValue, Text.asciiDigitValue]

theorem isAsciiDigit_of_mem_zeros {zeros : Nat} {digit : Char}
    (member : digit ∈ List.replicate zeros '0') : isAsciiDigit digit = true := by
  rw [List.eq_of_mem_replicate member]
  decide

/-- The significant digits are those of the decimal without the zeros at their end. -/
theorem exists_zeros (decimal : Decimal) :
    ∃ zeros, decimalDigits decimal.digits =
        (significant decimal).1 ++ List.replicate zeros '0' ∧
      (significant decimal).2 - (significant decimal).1.length = decimal.exponent + zeros := by
  have dropped := List.takeWhile_append_dropWhile (p := (· == '0'))
    (l := (decimalDigits decimal.digits).reverse)
  have allZeros : ∀ digit ∈ (decimalDigits decimal.digits).reverse.takeWhile (· == '0'),
      digit = '0' := fun digit member => by simpa using List.mem_takeWhile_imp member
  obtain ⟨zeros, zeros_eq⟩ : ∃ zeros,
      (decimalDigits decimal.digits).reverse.takeWhile (· == '0') = List.replicate zeros '0' :=
    ⟨_, List.eq_replicate_iff.mpr ⟨rfl, allZeros⟩⟩
  have split : decimalDigits decimal.digits =
      (significant decimal).1 ++ List.replicate zeros '0' := by
    have kept : (significant decimal).1 =
      ((decimalDigits decimal.digits).reverse.dropWhile (· == '0')).reverse := rfl
    rw [zeros_eq] at dropped
    rw [kept]
    simpa using (congrArg List.reverse dropped).symm
  have point : (significant decimal).2 =
      (decimalDigits decimal.digits).length + decimal.exponent := rfl
  refine ⟨zeros, split, ?_⟩
  rw [point, split, List.length_append, List.length_replicate]
  omega

end Digits

/-- Digits without a point, and where the point stands, that write a magnitude. -/
structure Writes (digits : List Char) (point : Int) (code : Fin finiteCodes) : Prop where
  nonempty : digits ≠ []
  areDigits : ∀ digit ∈ digits, isAsciiDigit digit = true
  rounded : ∀ negative, roundDecimal negative (decimalValue digits) (point - digits.length) =
    .finite negative code

/-- Characters that show a magnitude: a numeral without a sign that reads as the magnitude. -/
structure Shows (characters : List Char) (code : Fin finiteCodes) : Prop where
  head : ∃ first rest, characters = first :: rest ∧ isAsciiDigit first = true
  verbatim : ∀ character ∈ characters, IsVerbatim character
  reads : ∀ negative, Text.unsignedDecimal? negative characters = some (.finite negative code)

theorem significant_writes {code : Fin finiteCodes} (positive : code.val ≠ 0) :
    Writes (significant (shortest code)).1 (significant (shortest code)).2 code := by
  have rounded := roundDecimal_shortest code
  have value := decimalValue_decimalDigits (shortest code).digits
  obtain ⟨zeros, split, exponent⟩ := exists_zeros (shortest code)
  rw [split, decimalValue_append, decimalValue_zeros, List.length_replicate, Nat.add_zero] at value
  rw [← value, roundDecimal_shift, ← exponent] at rounded
  refine ⟨?_, ?_, fun negative => roundDecimal_signed rounded negative⟩
  · intro none
    have noValue : decimalValue [] = 0 := rfl
    rw [← ofDecimal_eq, none, ofDecimal, if_pos noValue] at rounded
    cases rounded
    exact positive rfl
  · intro digit member
    have inDigits : digit ∈ decimalDigits (shortest code).digits := by
      rw [split]
      exact List.mem_append_left _ member
    exact isAsciiDigit_of_mem_decimalDigits inDigits

section Layouts

variable {digits ending : List Char} {point exponent : Int} {code : Fin finiteCodes}

def isMark (character : Char) : Bool :=
  ['.', 'e', '+', '-'].contains character

theorem isVerbatim_of_isMark {character : Char} (mark : isMark character = true) :
    IsVerbatim character := by
  simp only [isMark, List.contains_eq_mem, List.mem_cons, List.not_mem_nil, or_false,
    decide_eq_true_eq] at mark
  rcases mark with rfl | rfl | rfl | rfl <;> constructor <;> decide

theorem decimalValue_padded (zeros : Nat) (digits : List Char) :
    decimalValue (List.replicate zeros '0' ++ digits) = decimalValue digits := by
  rw [decimalValue_append, decimalValue_zeros, Nat.zero_mul, Nat.zero_add]

theorem exponentText_hasExponent (exponent : Int) :
    HasExponent (exponentText exponent) exponent := by
  refine ⟨?_, ?_⟩
  · set digits := List.replicate (2 - (decimalDigits exponent.natAbs).length) '0' ++
      decimalDigits exponent.natAbs with digits_eq
    have value : decimalValue digits = exponent.natAbs := by
      rw [digits_eq, decimalValue_padded, decimalValue_decimalDigits]
    have some : digits ≠ [] := List.append_ne_nil_of_right_ne_nil _ (decimalDigits_ne_nil _)
    have areDigits : digits.all isAsciiDigit = true := by
      rw [List.all_eq_true]
      intro digit member
      rcases List.mem_append.mp member with padding | inDigits
      · exact isAsciiDigit_of_mem_zeros padding
      · exact isAsciiDigit_of_mem_decimalDigits inDigits
    change Text.exponentValue? ((if exponent < 0 then '-' else '+') :: digits) = _
    unfold Text.exponentValue?
    split_ifs with negative
    · simp [Text.takeSign, some, areDigits]
      omega
    · simp [Text.takeSign, some, areDigits]
      omega
  · rintro next member
    obtain rfl : 'e' = next := by simpa [exponentText] using member
    decide

theorem isVerbatim_of_mem_exponentText {exponent : Int} {character : Char}
    (member : character ∈ exponentText exponent) : IsVerbatim character := by
  simp only [exponentText, List.mem_cons, List.mem_append] at member
  rcases member with rfl | rfl | padding | digit
  · exact isVerbatim_of_isMark (by decide)
  · split <;> exact isVerbatim_of_isMark (by decide)
  · exact .of_isAsciiDigit (isAsciiDigit_of_mem_zeros padding)
  · exact .of_isAsciiDigit (isAsciiDigit_of_mem_decimalDigits digit)

theorem Shows.of_whole (whole : List Char) (nonempty : whole ≠ [])
    (wholeDigits : ∀ digit ∈ whole, isAsciiDigit digit = true)
    (ends : HasExponent ending exponent) (verbatim : ∀ character ∈ ending, IsVerbatim character)
    (rounded : ∀ negative, roundDecimal negative (decimalValue whole) exponent =
      .finite negative code) : Shows (whole ++ ending) code := by
  obtain ⟨first, rest, rfl⟩ := List.exists_cons_of_ne_nil nonempty
  refine ⟨⟨first, rest ++ ending, rfl, wholeDigits first List.mem_cons_self⟩, ?_, ?_⟩
  · intro character member
    rcases List.mem_append.mp member with inWhole | inEnding
    · exact .of_isAsciiDigit (wholeDigits character inWhole)
    · exact verbatim character inEnding
  · intro negative
    rw [Text.unsignedDecimal?_whole nonempty wholeDigits ends, ofDecimal_eq, rounded]

theorem Shows.of_pointed (whole fraction : List Char) (wholeSome : whole ≠ [])
    (fractionSome : fraction ≠ [])
    (wholeDigits : ∀ digit ∈ whole, isAsciiDigit digit = true)
    (fractionDigits : ∀ digit ∈ fraction, isAsciiDigit digit = true)
    (ends : HasExponent ending exponent) (verbatim : ∀ character ∈ ending, IsVerbatim character)
    (rounded : ∀ negative, roundDecimal negative (decimalValue (whole ++ fraction))
      (exponent - fraction.length) = .finite negative code) :
    Shows (whole ++ '.' :: (fraction ++ ending)) code := by
  obtain ⟨first, rest, rfl⟩ := List.exists_cons_of_ne_nil wholeSome
  refine ⟨⟨first, _, rfl, wholeDigits first List.mem_cons_self⟩, ?_, ?_⟩
  · intro character member
    simp only [List.mem_append, List.mem_cons (a := character) (b := '.')] at member
    rcases member with inWhole | rfl | inFraction | inEnding
    · exact .of_isAsciiDigit (wholeDigits character inWhole)
    · exact isVerbatim_of_isMark (by decide)
    · exact .of_isAsciiDigit (fractionDigits character inFraction)
    · exact verbatim character inEnding
  · intro negative
    rw [Text.unsignedDecimal?_pointed fractionSome wholeDigits fractionDigits ends, ofDecimal_eq,
      rounded]

theorem Shows.of_point (whole fraction : List Char) (wholeSome : whole ≠ [])
    (fractionSome : fraction ≠ []) (wholeDigits : ∀ digit ∈ whole, isAsciiDigit digit = true)
    (fractionDigits : ∀ digit ∈ fraction, isAsciiDigit digit = true)
    (rounded : ∀ negative, roundDecimal negative (decimalValue (whole ++ fraction))
      (-fraction.length) = .finite negative code) : Shows (whole ++ '.' :: fraction) code := by
  simp only [← Int.zero_sub] at rounded
  simpa using Shows.of_pointed whole fraction wholeSome fractionSome wholeDigits fractionDigits
    .nil (List.forall_mem_nil _) rounded

theorem Writes.shows_fraction (writes : Writes digits point code) (small : point ≤ 0) :
    Shows ('0' :: '.' :: (List.replicate (-point).toNat '0' ++ digits)) code := by
  refine .of_point ['0'] _ (by simp) (List.append_ne_nil_of_right_ne_nil _ writes.nonempty)
    (by simp [isAsciiDigit]) ?_ fun negative => ?_
  · intro digit member
    rcases List.mem_append.mp member with padding | inDigits
    · exact isAsciiDigit_of_mem_zeros padding
    · exact writes.areDigits digit inDigits
  · rw [← List.append_assoc, ← List.replicate_one, List.replicate_append_replicate,
      decimalValue_padded, List.length_append, List.length_replicate, ← writes.rounded]
    congr 1
    omega

theorem Writes.shows_whole (writes : Writes digits point code)
    (whole : digits.length ≤ point.toNat) :
    Shows (digits ++ List.replicate (point.toNat - digits.length) '0' ++ ['.', '0']) code := by
  refine .of_point _ ['0'] (List.append_ne_nil_of_left_ne_nil writes.nonempty _) (by simp) ?_
    (by simp [isAsciiDigit]) fun negative => ?_
  · intro digit member
    rcases List.mem_append.mp member with inDigits | padding
    · exact writes.areDigits digit inDigits
    · exact isAsciiDigit_of_mem_zeros padding
  · have value :
        decimalValue (digits ++ List.replicate (point.toNat - digits.length) '0' ++ ['0']) =
          decimalValue digits * 10 ^ (point.toNat - digits.length + 1) := by
      rw [List.append_assoc, ← List.replicate_one, List.replicate_append_replicate,
        decimalValue_append, decimalValue_zeros, List.length_replicate, Nat.add_zero]
    have some := List.length_pos_iff.mpr writes.nonempty
    rw [value, roundDecimal_shift, List.length_singleton, ← writes.rounded]
    congr 1
    omega

theorem Writes.shows_split (writes : Writes digits point code) (large : 0 < point)
    (some : point.toNat < digits.length) :
    Shows (digits.take point.toNat ++ '.' :: digits.drop point.toNat) code := by
  refine .of_point _ _ ?_ ?_
    (fun digit member => writes.areDigits digit (List.mem_of_mem_take member))
    (fun digit member => writes.areDigits digit (List.mem_of_mem_drop member)) fun negative => ?_
  · exact List.ne_nil_of_length_pos (by simp; omega)
  · exact List.ne_nil_of_length_pos (by simp; omega)
  · rw [List.take_append_drop, List.length_drop, ← writes.rounded]
    congr 1
    omega

theorem Writes.shows_positional (writes : Writes digits point code) :
    Shows (positional digits point) code := by
  unfold positional
  split_ifs with small whole
  · exact writes.shows_fraction small
  · exact writes.shows_whole whole
  · exact writes.shows_split (Int.not_le.mp small) (Nat.lt_of_not_le whole)

theorem Writes.shows_scientific (writes : Writes digits point code) :
    Shows (scientific digits point) code := by
  obtain ⟨nonempty, areDigits, rounded⟩ := writes
  have ends := exponentText_hasExponent (point - 1)
  rcases digits with - | ⟨first, - | ⟨second, rest⟩⟩
  · exact absurd rfl nonempty
  · exact .of_whole [first] (by simp) areDigits ends
      (fun _ => isVerbatim_of_mem_exponentText) rounded
  · refine .of_pointed [first] (second :: rest) (by simp) (by simp)
      (fun digit member => areDigits digit (by simp_all))
      (fun digit member => areDigits digit (List.mem_cons_of_mem _ member)) ends
      (fun _ => isVerbatim_of_mem_exponentText) fun negative => ?_
    rw [← rounded]
    simp only [List.length_cons, List.singleton_append]
    congr 1
    omega

theorem magnitudeText_shows {code : Fin finiteCodes} (positive : code.val ≠ 0) :
    Shows (magnitudeText code) code := by
  have writes := significant_writes positive
  unfold magnitudeText
  simp only
  split_ifs
  · exact writes.shows_positional
  · exact writes.shows_scientific

theorem zero_shows {code : Fin finiteCodes} (isZero : code.val = 0) :
    Shows ['0', '.', '0'] code := by
  have digit : ∀ digit ∈ ['0'], isAsciiDigit digit = true := by simp [isAsciiDigit]
  have noValue : decimalValue ['0', '0'] = 0 := decimalValue_zeros 2
  refine .of_point ['0'] ['0'] (by simp) (by simp) digit digit fun negative => ?_
  have code_eq : code = ⟨0, by decide⟩ := Fin.ext isZero
  rw [← ofDecimal_eq, ofDecimal, List.singleton_append, if_pos noValue, code_eq]
  rfl

theorem decimalDigits_shows {magnitude : Nat} {code : Fin finiteCodes}
    (whole : unitsOfCode code = magnitude * unitsPerOne) :
    Shows (decimalDigits magnitude) code := by
  have rounds : ∀ negative, roundDecimal negative (decimalValue (decimalDigits magnitude)) 0 =
      .finite negative code := by
    intro negative
    rw [decimalValue_decimalDigits, ← ofUnits_unitsOfCode, whole]
    simp [roundDecimal]
  simpa using Shows.of_whole (decimalDigits magnitude) (decimalDigits_ne_nil magnitude)
    (fun _ => isAsciiDigit_of_mem_decimalDigits) .nil (List.forall_mem_nil _) rounds

end Layouts

section Reading

theorem Shows.isVerbatim_of_mem {characters : List Char} {code : Fin finiteCodes}
    (shows : Shows characters code) {negative : Bool} {character : Char}
    (member : character ∈ signText negative ++ characters) : IsVerbatim character := by
  rcases List.mem_append.mp member with sign | inside
  · cases negative with
    | true => exact isVerbatim_of_isMark (List.mem_singleton.mp sign ▸ by decide)
    | false => cases sign
  · exact shows.verbatim character inside

theorem Shows.readDouble?_eq {characters : List Char} {code : Fin finiteCodes}
    (shows : Shows characters code) (negative : Bool) :
    Text.readDouble? (Text.ofCharacters (signText negative ++ characters)) =
      some (.finite negative code) := by
  rw [Text.readDouble?_of_verbatim fun character member => shows.isVerbatim_of_mem member]
  obtain ⟨⟨first, rest, rfl, digit⟩, -, reads⟩ := shows
  have plain : Text.IsPlain first := .inl digit
  cases negative with
  | true =>
      change Text.unsignedDouble? true (first :: rest) = _
      rw [Text.unsignedDouble?_of_plain plain, reads]
  | false =>
      change Text.unsignedDouble? (Text.takeSign (first :: rest)).1
        (Text.takeSign (first :: rest)).2 = _
      rw [Text.takeSign_of_plain plain, Text.unsignedDouble?_of_plain plain, reads]

theorem exists_text_of_finite (negative : Bool) (code : Fin finiteCodes) :
    ∃ characters, (finite negative code).textCharacters = signText negative ++ characters ∧
      Shows characters code := by
  rw [textCharacters]
  split_ifs with isZero
  · exact ⟨_, rfl, zero_shows isZero⟩
  · exact ⟨_, rfl, magnitudeText_shows isZero⟩

theorem smallInteger?_eq_some_iff {code magnitude : Nat} :
    smallInteger? code = some magnitude ↔
      magnitude < displayLimit ∧ unitsOfCode code = magnitude * unitsPerOne := by
  have positive : 0 < unitsPerOne := by
    obtain ⟨places, units, -⟩ := exists_unitsPerOne_eq
    rw [units]
    exact Nat.two_pow_pos places
  unfold smallInteger?
  simp only
  constructor
  · intro small
    split_ifs at small with integral
    cases small
    have whole := Nat.div_mul_cancel (Nat.dvd_of_mod_eq_zero integral.1)
    exact ⟨(Nat.div_lt_iff_lt_mul positive).mpr integral.2, whole.symm⟩
  · rintro ⟨below, whole⟩
    rw [whole, if_pos ⟨Nat.mul_mod_left _ _, Nat.mul_lt_mul_of_pos_right below positive⟩,
      Nat.mul_div_cancel _ positive]

theorem exists_display_of_finite (negative : Bool) (code : Fin finiteCodes) :
    ∃ characters, (finite negative code).displayCharacters = signText negative ++ characters ∧
      Shows characters code := by
  rw [displayCharacters]
  cases small : smallInteger? code with
  | none => exact exists_text_of_finite negative code
  | some magnitude =>
      have whole := (smallInteger?_eq_some_iff.mp small).2
      exact ⟨_, rfl, decimalDigits_shows whole⟩

theorem readDouble?_textCharacters (value : Double) :
    Text.readDouble? (Text.ofCharacters value.textCharacters) = some value := by
  cases value with
  | nan => decide +kernel
  | infinite negative => cases negative <;> decide +kernel
  | finite negative code =>
      obtain ⟨characters, layout, shows⟩ := exists_text_of_finite negative code
      rw [layout, shows.readDouble?_eq]

theorem readDouble?_displayCharacters (value : Double) :
    Text.readDouble? (Text.ofCharacters value.displayCharacters) = some value := by
  cases value with
  | nan => exact readDouble?_textCharacters .nan
  | infinite negative => exact readDouble?_textCharacters (.infinite negative)
  | finite negative code =>
      obtain ⟨characters, layout, shows⟩ := exists_display_of_finite negative code
      rw [layout, shows.readDouble?_eq]

theorem break_notMem_displayCharacters (value : Double) : '\n' ∉ value.displayCharacters := by
  cases value with
  | nan => decide
  | infinite negative => cases negative <;> decide
  | finite negative code =>
      obtain ⟨characters, layout, shows⟩ := exists_display_of_finite negative code
      rw [layout]
      exact fun breaks => absurd (shows.isVerbatim_of_mem breaks).not_blank (by decide)

theorem text_injective : Function.Injective text := by
  intro left right same
  have characters : left.textCharacters = right.textCharacters := String.ofList_injective same
  have reads := readDouble?_textCharacters left
  rw [characters, readDouble?_textCharacters] at reads
  exact (Option.some.inj reads).symm

theorem display_injective : Function.Injective display := by
  intro left right same
  have characters : left.displayCharacters = right.displayCharacters :=
    String.ofList_injective same
  have reads := readDouble?_displayCharacters left
  rw [characters, readDouble?_displayCharacters] at reads
  exact (Option.some.inj reads).symm

end Reading

end Reckon.Double
