import Mathlib.Data.List.TakeWhile
import Reckon.Proofs.Trimming
import Reckon.Text.Numeral

/-!
# Written numerals

The numerals of expressions: digits, digits around a point, or a point and digits. Each of them can
be read as a double, so reading one never fails.
-/

set_option autoImplicit false

namespace Reckon.Text

/-- The written forms of a numeral of an expression. -/
inductive IsNumeral : Text → Prop where
  | whole {digits : List Char} :
      digits ≠ [] → (∀ digit ∈ digits, isAsciiDigit digit) → IsNumeral (ofCharacters digits)
  | pointed {whole fraction : List Char} :
      fraction ≠ [] → (∀ digit ∈ whole, isAsciiDigit digit) →
      (∀ digit ∈ fraction, isAsciiDigit digit) →
      IsNumeral (ofCharacters (whole ++ '.' :: fraction))

/-- Digits `0` to `9` and points: what the numerals of expressions are made of. -/
def IsPlain (character : Char) : Prop :=
  isAsciiDigit character = true ∨ character = '.'

theorem code_of_isAsciiDigit {character : Char} (digit : isAsciiDigit character = true) :
    48 ≤ character.toNat ∧ character.toNat ≤ 57 := by
  simpa [isAsciiDigit, Char.le_def, UInt32.le_iff_toNat_le] using digit

theorem digitValue?_of_isAsciiDigit {character : Char} (digit : isAsciiDigit character = true) :
    digitValue? character = some (character.toNat - 48) := by
  obtain ⟨least, most⟩ := code_of_isAsciiDigit digit
  have below : character.toNat < 58 := by omega
  simp [digitValue?, digitZeros, least, below]

theorem asciiDigit_code {character : Char} (digit : isAsciiDigit character = true) :
    asciiDigit (character.toNat - 48) = character := by
  obtain ⟨least, _⟩ := code_of_isAsciiDigit digit
  have code : 48 + (character.toNat - 48) = character.toNat := by omega
  rw [asciiDigit, code, Char.ofNat_toNat]

/-- A character that the reader of numerals takes as it stands: no digit of another script, no
blank and no underscore. -/
structure IsVerbatim (character : Char) : Prop where
  digit : ((digitValue? character).map asciiDigit).getD character = character
  not_blank : isNumeralBlank character = false
  ne_underscore : character ≠ '_'

theorem IsVerbatim.of_isAsciiDigit {character : Char} (digit : isAsciiDigit character = true) :
    IsVerbatim character where
  digit := by
    rw [digitValue?_of_isAsciiDigit digit]
    exact asciiDigit_code digit
  not_blank := by
    obtain ⟨least, most⟩ := code_of_isAsciiDigit digit
    simp [isNumeralBlank, isBlank]
    omega
  ne_underscore := by
    rintro rfl
    exact absurd digit (by decide)

theorem IsPlain.isVerbatim {character : Char} (plain : IsPlain character) :
    IsVerbatim character := by
  rcases plain with digit | rfl
  · exact .of_isAsciiDigit digit
  · constructor <;> decide

theorem toAsciiDigits_eq_self {characters : List Char}
    (verbatim : ∀ character ∈ characters, IsVerbatim character) :
    toAsciiDigits characters = characters := by
  unfold toAsciiDigits
  exact (List.map_congr_left fun character member => (verbatim character member).digit).trans
    (List.map_id' characters)

theorem numeralCharacters_ofCharacters {characters : List Char}
    (verbatim : ∀ character ∈ characters, IsVerbatim character) :
    numeralCharacters (ofCharacters characters) = characters := by
  rw [numeralCharacters, characters_ofCharacters,
    trimBy_eq_self fun character member => (verbatim character member).not_blank,
    toAsciiDigits_eq_self verbatim]

theorem withoutUnderscores?_eq_some {characters : List Char}
    (absent : '_' ∉ characters) (afterDigit : Bool) :
    withoutUnderscores? afterDigit characters = some characters := by
  induction characters generalizing afterDigit with
  | nil => rfl
  | cons character rest ih =>
      simp only [List.mem_cons, not_or] at absent
      rw [withoutUnderscores?]
      · rw [ih absent.2]
        rfl
      · exact fun same => absent.1 same.symm

theorem readDouble?_of_verbatim {characters : List Char}
    (verbatim : ∀ character ∈ characters, IsVerbatim character) :
    readDouble? (ofCharacters characters) =
      unsignedDouble? (takeSign characters).1 (takeSign characters).2 := by
  have absent : '_' ∉ characters := fun member => (verbatim '_' member).ne_underscore rfl
  simp only [readDouble?, numeralCharacters_ofCharacters verbatim,
    withoutUnderscores?_eq_some absent, bind, Option.bind]

section Plain

variable {first : Char} (plain : IsPlain first) (rest : List Char)
include plain

theorem takeSign_of_plain : takeSign (first :: rest) = (false, first :: rest) := by
  unfold takeSign
  split
  case h_1 same =>
    cases same
    exact absurd plain (by unfold IsPlain; decide)
  case h_2 same =>
    cases same
    exact absurd plain (by unfold IsPlain; decide)
  · rfl

theorem toAsciiLower_of_plain : toAsciiLower first = first := by
  rcases plain with digit | rfl
  · have below : ¬ 65 ≤ first.toNat := by
      have := (code_of_isAsciiDigit digit).2
      omega
    simp [toAsciiLower, Char.le_def, UInt32.le_iff_toNat_le, below]
  · decide

/-- What starts like a numeral is none of the names. -/
theorem unsignedDouble?_of_plain (negative : Bool) :
    unsignedDouble? negative (first :: rest) = unsignedDecimal? negative (first :: rest) := by
  have noName : ∀ letter letters, ¬ IsPlain letter →
      (first :: rest).map toAsciiLower ≠ letter :: letters := by
    intro letter letters notPlain same
    rw [List.map_cons, toAsciiLower_of_plain plain, List.cons.injEq] at same
    exact notPlain (same.1 ▸ plain)
  unfold unsignedDouble?
  simp only [Bool.or_eq_true, beq_iff_eq]
  rw [if_neg, if_neg]
  · exact noName 'n' _ (by unfold IsPlain; decide)
  · rintro (same | same) <;> exact noName 'i' _ (by unfold IsPlain; decide) same

end Plain

section Decimals

variable {whole fraction ending : List Char} {exponent : Int}

theorem takeWhile_isAsciiDigit_append (digits : ∀ digit ∈ whole, isAsciiDigit digit)
    (ends : ∀ next ∈ ending.head?, isAsciiDigit next = false) :
    (whole ++ ending).takeWhile isAsciiDigit = whole := by
  rw [List.takeWhile_append_of_pos digits]
  cases ending with
  | nil => simp
  | cons next rest => simp [ends next rfl]

theorem dropWhile_isAsciiDigit_append (digits : ∀ digit ∈ whole, isAsciiDigit digit)
    (ends : ∀ next ∈ ending.head?, isAsciiDigit next = false) :
    (whole ++ ending).dropWhile isAsciiDigit = ending := by
  rw [List.dropWhile_append_of_pos digits]
  cases ending with
  | nil => rfl
  | cons next rest => simp [ends next rfl]

/-- What follows the digits of a numeral: nothing, or a mark with an exponent. -/
structure HasExponent (ending : List Char) (exponent : Int) : Prop where
  value : exponentPart? ending = some exponent
  head : ∀ next ∈ ending.head?, isAsciiDigit next = false ∧ next ≠ '.'

theorem HasExponent.nil : HasExponent [] 0 := ⟨rfl, by simp⟩

theorem takeSign_append (nonempty : ending ≠ []) (rest : List Char) :
    takeSign (ending ++ rest) =
      ((takeSign ending).1, (takeSign ending).2 ++ rest) := by
  obtain ⟨first, others, rfl⟩ := List.exists_cons_of_ne_nil nonempty
  rw [List.cons_append]
  by_cases plus : first = '+'
  · subst plus
    rfl
  · by_cases minus : first = '-'
    · subst minus
      rfl
    · have unsigned : ∀ behind, takeSign (first :: behind) = (false, first :: behind) := by
        intro behind
        rw [takeSign]
        · exact fun _ same => plus (List.cons.inj same).1
        · exact fun _ same => minus (List.cons.inj same).1
      rw [unsigned, unsigned]
      rfl

/-- An exponent that is there is a mark, perhaps a sign, and digits. -/
theorem HasExponent.exists_digits (ends : HasExponent ending exponent) (nonempty : ending ≠ []) :
    ∃ mark written, ending = mark :: written ∧ (mark == 'e' || mark == 'E') = true ∧
      (takeSign written).2 ≠ [] ∧
      (∀ digit ∈ (takeSign written).2, isAsciiDigit digit = true) ∧
      (if (takeSign written).1 then -(decimalValue (takeSign written).2 : Int)
        else decimalValue (takeSign written).2) = exponent := by
  obtain ⟨mark, written, rfl⟩ := List.exists_cons_of_ne_nil nonempty
  have value := ends.value
  simp only [exponentPart?] at value
  split_ifs at value with isMark
  unfold exponentValue? at value
  simp only at value
  split at value
  · cases value
  next isSome =>
    simp only [Bool.or_eq_true, not_or, List.isEmpty_iff, Bool.not_eq_true', Bool.not_eq_false,
      List.all_eq_true] at isSome
    exact ⟨mark, written, rfl, isMark, isSome.1, isSome.2, Option.some.inj value⟩

theorem unsignedDecimal?_whole (nonempty : whole ≠ [])
    (digits : ∀ digit ∈ whole, isAsciiDigit digit) (ends : HasExponent ending exponent)
    (negative : Bool) :
    unsignedDecimal? negative (whole ++ ending) =
      some (Double.ofDecimal negative (decimalValue whole) exponent) := by
  have stops := fun next member => (ends.head next member).1
  have noPoint : ∀ rest, ending ≠ '.' :: rest := by
    rintro rest rfl
    exact (ends.head '.' rfl).2 rfl
  unfold unsignedDecimal?
  simp only [takeWhile_isAsciiDigit_append digits stops,
    dropWhile_isAsciiDigit_append digits stops]
  simp [nonempty, ends.value]

theorem unsignedDecimal?_pointed (nonempty : fraction ≠ [])
    (wholeDigits : ∀ digit ∈ whole, isAsciiDigit digit)
    (fractionDigits : ∀ digit ∈ fraction, isAsciiDigit digit) (ends : HasExponent ending exponent)
    (negative : Bool) :
    unsignedDecimal? negative (whole ++ '.' :: (fraction ++ ending)) =
      some (Double.ofDecimal negative (decimalValue (whole ++ fraction))
        (exponent - fraction.length)) := by
  have stops := fun next member => (ends.head next member).1
  have point : ∀ next ∈ ('.' :: (fraction ++ ending)).head?, isAsciiDigit next = false := by
    simp [isAsciiDigit]
  unfold unsignedDecimal?
  simp [takeWhile_isAsciiDigit_append wholeDigits point,
    dropWhile_isAsciiDigit_append wholeDigits point,
    takeWhile_isAsciiDigit_append fractionDigits stops,
    dropWhile_isAsciiDigit_append fractionDigits stops, nonempty, ends.value]

end Decimals

theorem readDouble?_of_plain {characters : List Char} (nonempty : characters ≠ [])
    (plain : ∀ character ∈ characters, IsPlain character) :
    readDouble? (ofCharacters characters) = unsignedDecimal? false characters := by
  rw [readDouble?_of_verbatim fun character member => (plain character member).isVerbatim]
  obtain ⟨first, rest, rfl⟩ := List.exists_cons_of_ne_nil nonempty
  have firstPlain := plain first List.mem_cons_self
  rw [takeSign_of_plain firstPlain, unsignedDouble?_of_plain firstPlain]

theorem readDouble?_whole {digits : List Char} (nonempty : digits ≠ [])
    (allDigits : ∀ digit ∈ digits, isAsciiDigit digit) :
    readDouble? (ofCharacters digits) = some (Double.ofDecimal false (decimalValue digits) 0) := by
  rw [readDouble?_of_plain nonempty fun digit member => .inl (allDigits digit member)]
  simpa using unsignedDecimal?_whole nonempty allDigits .nil false

theorem readDouble?_pointed {whole fraction : List Char} (nonempty : fraction ≠ [])
    (wholeDigits : ∀ digit ∈ whole, isAsciiDigit digit)
    (fractionDigits : ∀ digit ∈ fraction, isAsciiDigit digit) :
    readDouble? (ofCharacters (whole ++ '.' :: fraction)) =
      some (Double.ofDecimal false (decimalValue (whole ++ fraction)) (-fraction.length)) := by
  have plain : ∀ character ∈ whole ++ '.' :: fraction, IsPlain character := by
    intro character member
    rcases List.mem_append.mp member with inWhole | inRest
    · exact .inl (wholeDigits character inWhole)
    · rcases List.mem_cons.mp inRest with point | inFraction
      · exact .inr point
      · exact .inl (fractionDigits character inFraction)
  rw [readDouble?_of_plain (by simp) plain]
  simpa using unsignedDecimal?_pointed nonempty wholeDigits fractionDigits .nil false

/-- Reading a numeral of an expression never fails; its value may still be an infinity. -/
theorem IsNumeral.readDouble?_isSome {text : Text} (numeral : IsNumeral text) :
    ∃ value, readDouble? text = some value := by
  cases numeral with
  | whole nonempty digits => exact ⟨_, readDouble?_whole nonempty digits⟩
  | pointed nonempty whole fraction => exact ⟨_, readDouble?_pointed nonempty whole fraction⟩

end Reckon.Text
