import Reckon.Json.Reader
import Reckon.Json.Writer
import Reckon.Proofs.Displays
import Reckon.Proofs.Json.Values

/-!
# Numerals of JSON

An integer is written with the digits that it has, and a double with a fraction or an exponent, so
that each is read as what it was. What follows a numeral in a text is a comma, a closing bracket or
nothing, and none of them goes on with it.
-/

set_option autoImplicit false

namespace Reckon.Json

open Text (HasExponent decimalValue isAsciiDigit)

/-- What may stand behind a value: nothing, a comma, or a closing bracket. -/
def Stops (rest : List Char) : Prop :=
  ∀ next ∈ rest.head?, next = ',' ∨ next = ']' ∨ next = '\x7d'

/-- The digits of a whole part: a zero alone, or digits that start with another. -/
structure IsWhole (digits : List Char) : Prop where
  nonempty : digits ≠ []
  areDigits : ∀ digit ∈ digits, isAsciiDigit digit = true
  lead : digits.head? = some '0' → digits = ['0']

/-- What follows the whole part of a numeral that is no integer: a point with digits, or an
exponent. -/
inductive IsFractional : List Char → Prop where
  | pointed {fraction ending : List Char} {exponent : Int} :
      fraction ≠ [] → (∀ digit ∈ fraction, isAsciiDigit digit = true) →
      HasExponent ending exponent → IsFractional ('.' :: (fraction ++ ending))
  | scaled {ending : List Char} {exponent : Int} :
      ending ≠ [] → HasExponent ending exponent → IsFractional ending

section Parts

variable {whole fraction ending rest : List Char} {exponent : Int}

theorem decimalDigits_isWhole (value : Nat) : IsWhole (Double.decimalDigits value) where
  nonempty := Double.decimalDigits_ne_nil value
  areDigits := fun _ => Double.isAsciiDigit_of_mem_decimalDigits
  lead := by
    by_cases isZero : value = 0
    · intro _
      subst isZero
      rfl
    · exact fun zero => absurd zero (Double.head?_decimalDigits isZero)

theorem IsWhole.wholeDigits?_eq (isWhole : IsWhole whole)
    (ends : ∀ next ∈ rest.head?, isAsciiDigit next = false) :
    wholeDigits? (whole ++ rest) = some (whole, rest) := by
  obtain ⟨first, others, rfl⟩ := List.exists_cons_of_ne_nil isWhole.nonempty
  by_cases isZero : first = '0'
  · subst isZero
    have alone := isWhole.lead rfl
    rw [alone]
    rfl
  · rw [wholeDigits?]
    · simp only [Text.takeWhile_isAsciiDigit_append isWhole.areDigits ends,
        Text.dropWhile_isAsciiDigit_append isWhole.areDigits ends]
      rfl
    · intro after zero
      exact isZero (List.cons.inj zero).1

theorem fractionDigits_pointed (nonempty : fraction ≠ [])
    (areDigits : ∀ digit ∈ fraction, isAsciiDigit digit = true)
    (ends : ∀ next ∈ rest.head?, isAsciiDigit next = false) :
    fractionDigits ('.' :: (fraction ++ rest)) = (fraction, rest) := by
  simp [fractionDigits, Text.takeWhile_isAsciiDigit_append areDigits ends,
    Text.dropWhile_isAsciiDigit_append areDigits ends, nonempty]

theorem fractionDigits_none (noPoint : rest.head? ≠ some '.') :
    fractionDigits rest = ([], rest) := by
  rw [fractionDigits]
  intro after point
  exact noPoint (by rw [point]; rfl)

theorem exponentDigits_none (noMark : ∀ next ∈ rest.head?, next ≠ 'e' ∧ next ≠ 'E') :
    exponentDigits rest = (none, rest) := by
  cases rest with
  | nil => rfl
  | cons next others =>
      have notMark := noMark next rfl
      simp [exponentDigits, notMark]

theorem exponentDigits_exponent (nonempty : ending ≠ []) (ends : HasExponent ending exponent)
    (stops : ∀ next ∈ rest.head?, isAsciiDigit next = false) :
    exponentDigits (ending ++ rest) = (some exponent, rest) := by
  obtain ⟨mark, written, rfl, isMark, someDigits, areDigits, value⟩ := ends.exists_digits nonempty
  have writtenSome : written ≠ [] := by
    rintro rfl
    exact someDigits rfl
  simp only [exponentDigits, List.cons_append, if_pos isMark, Text.takeSign_append writtenSome,
    Text.takeWhile_isAsciiDigit_append areDigits stops,
    Text.dropWhile_isAsciiDigit_append areDigits stops]
  simpa [someDigits] using value

end Parts

section Stops

variable {rest : List Char}

theorem Stops.noNumeral (stops : Stops rest) :
    ∀ next ∈ rest.head?, isAsciiDigit next = false ∧ next ≠ '.' ∧ next ≠ 'e' ∧ next ≠ 'E' := by
  intro next isNext
  rcases stops next isNext with rfl | rfl | rfl <;> decide

theorem head?_append_of_stops {ending : List Char} {exponent : Int} (stops : Stops rest)
    (ends : HasExponent ending exponent) :
    ∀ next ∈ (ending ++ rest).head?, isAsciiDigit next = false ∧ next ≠ '.' := by
  cases ending with
  | nil =>
      intro next isNext
      have noNumeral := stops.noNumeral next isNext
      exact ⟨noNumeral.1, noNumeral.2.1⟩
  | cons first others => exact ends.head

end Stops

section Reading

variable {negative : Bool} {whole fraction characters ending rest behind : List Char}
variable {exponent? : Option Int}

/-- A sign and a whole part, and what is read of the fraction and the exponent behind them. -/
theorem readNumber_parts (isWhole : IsWhole whole)
    (ends : ∀ next ∈ rest.head?, isAsciiDigit next = false)
    (fractionRead : fractionDigits rest = (fraction, ending))
    (exponentRead : exponentDigits ending = (exponent?, behind)) :
    readNumber (Double.signText negative ++ (whole ++ rest)) =
      if fraction.isEmpty && exponent?.isNone then
        if Text.longestInteger < whole.length then .error (.tooManyDigits whole.length)
        else
          .ok (.integer (if negative then -(decimalValue whole : Int) else decimalValue whole),
            behind)
      else
        .ok (.real (Double.ofDecimal negative (decimalValue (whole ++ fraction))
          (exponent?.getD 0 - fraction.length)), behind) := by
  have read := isWhole.wholeDigits?_eq ends
  obtain ⟨first, others, rfl⟩ := List.exists_cons_of_ne_nil isWhole.nonempty
  have notMinus : first ≠ '-' := by
    rintro rfl
    cases isWhole.areDigits '-' List.mem_cons_self
  unfold readNumber
  cases negative with
  | true =>
      rw [Double.signText, if_pos rfl, List.singleton_append]
      simp only [read, fractionRead, exponentRead]
  | false =>
      rw [Double.signText, if_neg (by decide), List.nil_append]
      split
      next signed =>
        split at signed
        next minus => exact absurd (List.cons.inj minus).1 notMinus
        next =>
          obtain ⟨rfl, rfl⟩ := Prod.mk.inj signed
          simp only [read, fractionRead, exponentRead]

theorem readNumber_integer {value : Int}
    (short : (Double.decimalDigits value.natAbs).length ≤ Text.longestInteger)
    (stops : Stops rest) :
    readNumber (integerCharacters value ++ rest) = .ok (.integer value, rest) := by
  have noNumeral := stops.noNumeral
  have noFraction : fractionDigits rest = ([], rest) :=
    fractionDigits_none fun point => (noNumeral '.' point).2.1 rfl
  have noExponent : exponentDigits rest = (none, rest) :=
    exponentDigits_none fun next isNext => (noNumeral next isNext).2.2
  rw [integerCharacters, List.append_assoc,
    readNumber_parts (decimalDigits_isWhole _) (fun next isNext => (noNumeral next isNext).1)
      noFraction noExponent,
    if_pos (by rfl), if_neg (Nat.not_lt.mpr short), Double.decimalValue_decimalDigits]
  by_cases isNegative : value < 0
  · rw [if_pos (by simpa using isNegative)]
    congr
    omega
  · rw [if_neg (by simpa using isNegative)]
    congr
    omega

/-- A numeral with a fraction or an exponent is read as the double that it is read as alone. -/
theorem readNumber_fractional {value : Double} (isWhole : IsWhole whole)
    (isFractional : IsFractional ending) (stops : Stops rest)
    (reads : Text.unsignedDecimal? negative (whole ++ ending) = some value) :
    readNumber (Double.signText negative ++ (whole ++ ending ++ rest)) =
      .ok (.real value, rest) := by
  have noNumeral := stops.noNumeral
  have noDigit := fun next isNext => (noNumeral next isNext).1
  have noMark := fun next isNext => (noNumeral next isNext).2.2
  rw [List.append_assoc]
  cases isFractional with
  | @pointed fraction ending exponent nonempty areDigits ends =>
      have goesOn := fun next isNext => (head?_append_of_stops stops ends next isNext).1
      have fractionRead := fractionDigits_pointed nonempty areDigits goesOn
      rw [Text.unsignedDecimal?_pointed nonempty isWhole.areDigits areDigits ends] at reads
      obtain rfl := Option.some.inj reads
      rw [List.cons_append, List.append_assoc]
      by_cases none : ending = []
      · subst none
        obtain rfl : 0 = exponent := Option.some.inj ends.value
        rw [readNumber_parts isWhole (by simp [isAsciiDigit]) fractionRead
          (exponentDigits_none noMark)]
        simp [nonempty]
      · rw [readNumber_parts isWhole (by simp [isAsciiDigit]) fractionRead
          (exponentDigits_exponent none ends noDigit)]
        simp
  | @scaled _ exponent nonempty ends =>
      have goesOn := head?_append_of_stops stops ends
      have noPoint : (ending ++ rest).head? ≠ some '.' := by
        intro point
        exact (goesOn '.' point).2 rfl
      rw [Text.unsignedDecimal?_whole isWhole.nonempty isWhole.areDigits ends] at reads
      obtain rfl := Option.some.inj reads
      rw [readNumber_parts isWhole (fun next isNext => (goesOn next isNext).1)
        (fractionDigits_none noPoint) (exponentDigits_exponent nonempty ends noDigit)]
      simp

end Reading

section Doubles

open Double (decimalDigits exponentText magnitudeText positional scientific shortest significant
  signText Writes)

variable {digits : List Char} {point : Int} {code : Fin finiteCodes}

theorem head?_significant (some : (significant (shortest code)).1 ≠ []) :
    (significant (shortest code)).1.head? ≠ .some '0' := by
  obtain ⟨zeros, split, -⟩ := Double.exists_zeros (shortest code)
  have positive : (shortest code).digits ≠ 0 := by
    intro isZero
    apply some
    simp [significant, isZero, decimalDigits]
  have head := Double.head?_decimalDigits positive
  rwa [split, List.head?_append_of_ne_nil _ some] at head

def IsSplit (characters : List Char) : Prop :=
  ∃ whole ending, characters = whole ++ ending ∧ IsWhole whole ∧ IsFractional ending

theorem IsSplit.of_point {whole fraction : List Char} (isWhole : IsWhole whole)
    (nonempty : fraction ≠ []) (areDigits : ∀ digit ∈ fraction, isAsciiDigit digit = true) :
    IsSplit (whole ++ '.' :: fraction) := by
  refine ⟨whole, '.' :: (fraction ++ []), ?_, isWhole, .pointed nonempty areDigits .nil⟩
  rw [List.append_nil]

variable (nonempty : digits ≠ []) (areDigits : ∀ digit ∈ digits, isAsciiDigit digit = true)
variable (lead : digits.head? ≠ some '0')
include nonempty areDigits lead

theorem positional_isSplit : IsSplit (positional digits point) := by
  unfold positional
  split_ifs with small whole
  · change IsSplit (['0'] ++ '.' :: (List.replicate (-point).toNat '0' ++ digits))
    apply IsSplit.of_point
    · exact decimalDigits_isWhole 0
    · exact List.append_ne_nil_of_right_ne_nil _ nonempty
    · intro digit member
      rcases List.mem_append.mp member with padding | inDigits
      · exact Double.isAsciiDigit_of_mem_zeros padding
      · exact areDigits digit inDigits
  · apply IsSplit.of_point
    · constructor
      · exact List.append_ne_nil_of_left_ne_nil nonempty _
      · intro digit member
        rcases List.mem_append.mp member with inDigits | padding
        · exact areDigits digit inDigits
        · exact Double.isAsciiDigit_of_mem_zeros padding
      · rw [List.head?_append_of_ne_nil _ nonempty]
        exact fun zero => absurd zero lead
    · simp
    · simp [isAsciiDigit]
  · apply IsSplit.of_point
    · constructor
      · exact List.ne_nil_of_length_pos (by simp; omega)
      · exact fun digit member => areDigits digit (List.mem_of_mem_take member)
      · rw [List.head?_take, if_neg (by omega)]
        exact fun zero => absurd zero lead
    · exact List.ne_nil_of_length_pos (by simp; omega)
    · exact fun digit member => areDigits digit (List.mem_of_mem_drop member)

theorem scientific_isSplit : IsSplit (scientific digits point) := by
  have ends := Double.exponentText_hasExponent (point - 1)
  obtain ⟨first, others, rfl⟩ := List.exists_cons_of_ne_nil nonempty
  have isWhole : IsWhole [first] := by
    constructor
    · simp
    · intro digit member
      exact areDigits digit (by simp_all)
    · exact fun zero => absurd zero lead
  cases others with
  | nil =>
      have isFractional : IsFractional (exponentText (point - 1)) :=
        .scaled (by simp [exponentText]) ends
      exact ⟨[first], _, rfl, isWhole, isFractional⟩
  | cons second rest =>
      refine ⟨[first], '.' :: (second :: rest ++ exponentText (point - 1)), rfl, isWhole, ?_⟩
      apply IsFractional.pointed (by simp) ?_ ends
      exact fun digit member => areDigits digit (List.mem_cons_of_mem _ member)

omit nonempty areDigits lead

theorem magnitudeText_isSplit (positive : code.val ≠ 0) : IsSplit (magnitudeText code) := by
  have writes := Double.significant_writes positive
  have lead := head?_significant writes.nonempty
  unfold magnitudeText
  simp only
  split_ifs
  · exact positional_isSplit writes.nonempty writes.areDigits lead
  · exact scientific_isSplit writes.nonempty writes.areDigits lead

theorem exists_split_of_finite (negative : Bool) (code : Fin finiteCodes) :
    ∃ whole ending, (Double.finite negative code).textCharacters =
        signText negative ++ (whole ++ ending) ∧
      IsWhole whole ∧ IsFractional ending ∧
      Text.unsignedDecimal? negative (whole ++ ending) = some (.finite negative code) := by
  rw [Double.textCharacters]
  split_ifs with isZero
  · have isSplit : IsSplit ['0', '.', '0'] :=
      .of_point (decimalDigits_isWhole 0) (by simp) (by simp [isAsciiDigit])
    obtain ⟨whole, ending, layout, isWhole, isFractional⟩ := isSplit
    have reads := (Double.zero_shows isZero).reads negative
    rw [layout] at reads ⊢
    exact ⟨whole, ending, rfl, isWhole, isFractional, reads⟩
  · obtain ⟨whole, ending, layout, isWhole, isFractional⟩ := magnitudeText_isSplit isZero
    have reads := (Double.magnitudeText_shows isZero).reads negative
    rw [layout] at reads ⊢
    exact ⟨whole, ending, rfl, isWhole, isFractional, reads⟩

end Doubles

section Scalars

variable {rest : List Char}

/-- No name starts like a numeral. -/
theorem readScalar_numeral {digits : List Char} (isWhole : IsWhole digits) (negative : Bool)
    (rest : List Char) :
    readScalar (Double.signText negative ++ (digits ++ rest)) =
      readNumber (Double.signText negative ++ (digits ++ rest)) := by
  obtain ⟨first, others, rfl⟩ := List.exists_cons_of_ne_nil isWhole.nonempty
  have isDigit := isWhole.areDigits first List.mem_cons_self
  have noWord : words.find? (fun word =>
      word.1.isPrefixOf (Double.signText negative ++ (first :: others ++ rest))) = none := by
    have differs : ∀ letter, isAsciiDigit letter = false → letter ≠ first := by
      intro letter notDigit same
      rw [same, isDigit] at notDigit
      cases notDigit
    cases negative with
    | true => simp [words, Double.signText, differs 'I' (by decide)]
    | false =>
        simp [words, Double.signText, differs 'n' (by decide), differs 't' (by decide),
          differs 'f' (by decide), differs 'N' (by decide), differs 'I' (by decide),
          differs '-' (by decide)]
  rw [readScalar, noWord]

theorem readScalar_integer {value : Int}
    (short : (Double.decimalDigits value.natAbs).length ≤ Text.longestInteger)
    (stops : Stops rest) :
    readScalar (integerCharacters value ++ rest) = .ok (.integer value, rest) := by
  have reads := readNumber_integer short stops
  rw [integerCharacters, List.append_assoc] at reads ⊢
  rw [readScalar_numeral (decimalDigits_isWhole _), reads]

theorem readScalar_real {value : Double} (stops : Stops rest) :
    readScalar (realCharacters value ++ rest) = .ok (.real value, rest) := by
  cases value with
  | nan => rfl
  | infinite negative => cases negative <;> rfl
  | finite negative code =>
      obtain ⟨whole, ending, layout, isWhole, isFractional, reads⟩ :=
        exists_split_of_finite negative code
      have readsNumber := readNumber_fractional isWhole isFractional stops reads
      rw [realCharacters, layout, List.append_assoc]
      · rw [List.append_assoc] at readsNumber ⊢
        rw [readScalar_numeral isWhole, readsNumber]
      · simp
      · simp

end Scalars

end Reckon.Json
