import Reckon.Proofs.Lexing

/-!
# Scanning lexemes

What the scanner does at the front of a text: it skips a blank, and it takes a lexeme off the text
when nothing behind the lexeme would make it longer. Only numerals can go on, so only behind a
numeral does it matter what comes next.
-/

set_option autoImplicit false

namespace Reckon

namespace Token

/-- A numeral may end before these glyphs: the first of them does not go on with it. -/
def EndsNumeral (rest : List Glyph) : Prop :=
  ∀ glyph ∈ rest.head?, isNumeralGlyph glyph = false

section Glyphs

variable {glyph : Glyph} {rest left right : List Glyph}

theorem endsNumeral_nil : EndsNumeral [] := by
  simp [EndsNumeral]

@[simp] theorem endsNumeral_cons :
    EndsNumeral (glyph :: rest) ↔ isNumeralGlyph glyph = false := by
  simp [EndsNumeral]

theorem EndsNumeral.append (leftEnds : EndsNumeral left) (rightEnds : EndsNumeral right) :
    EndsNumeral (left ++ right) := by
  cases left with
  | nil => exact rightEnds
  | cons glyph rest => simpa using leftEnds

theorem EndsNumeral.of_append (ends : EndsNumeral (left ++ right)) : EndsNumeral left := by
  cases left with
  | nil => exact endsNumeral_nil
  | cons glyph rest => simpa using ends

theorem not_blank_of_isNumeralGlyph (plain : isNumeralGlyph glyph = true) :
    glyph.isIn Text.isBlank = false := by
  cases glyph with
  | half part => rfl
  | whole character =>
      by_cases point : character = '.'
      · subst point
        decide
      · obtain ⟨least, most⟩ :=
          Text.code_of_isAsciiDigit (isIn_digit_of_isNumeralGlyph plain (by simpa using point))
        simp [Glyph.isIn, Text.isBlank]
        omega

theorem not_isNumeralGlyph_of_blank (blank : glyph.isIn Text.isBlank = true) :
    isNumeralGlyph glyph = false := by
  cases plain : isNumeralGlyph glyph with
  | false => rfl
  | true => simp [not_blank_of_isNumeralGlyph plain] at blank

theorem endsNumeral_of_blank (blank : ∀ glyph ∈ left, glyph.isIn Text.isBlank = true) :
    EndsNumeral left := by
  cases left with
  | nil => exact endsNumeral_nil
  | cons glyph rest =>
      exact endsNumeral_cons.mpr (not_isNumeralGlyph_of_blank (blank glyph (by simp)))

theorem endsNumeral_dropWhile (glyphs : List Glyph) :
    EndsNumeral (glyphs.dropWhile isNumeralGlyph) := by
  intro next isHead
  have head := List.head?_dropWhile_not isNumeralGlyph glyphs
  rw [isHead] at head
  simpa using head

theorem not_special_of_singleKind? {kind : TokenKind} (found : singleKind? glyph = some kind) :
    glyph.isIn Text.isBlank = false ∧ isNumeralGlyph glyph = false := by
  unfold singleKind? at found
  split at found <;> first | exact ⟨by decide, by decide⟩ | cases found

end Glyphs

end Token

namespace Text.IsNumeral

variable {text : Text}

theorem isNumeralGlyph (numeral : text.IsNumeral) :
    ∀ glyph ∈ text.toList, Token.isNumeralGlyph glyph = true := by
  intro glyph member
  cases numeral with
  | whole nonempty digits =>
      simp only [toList_ofCharacters, List.mem_map] at member
      obtain ⟨digit, inDigits, rfl⟩ := member
      simp [Token.isNumeralGlyph, Glyph.isIn, digits digit inDigits]
  | pointed nonempty whole fraction =>
      simp only [toList_ofCharacters, List.mem_map, List.mem_append, List.mem_cons] at member
      obtain ⟨character, inWhole | rfl | inFraction, rfl⟩ := member
      · simp [Token.isNumeralGlyph, Glyph.isIn, whole character inWhole]
      · decide
      · simp [Token.isNumeralGlyph, Glyph.isIn, fraction character inFraction]

theorem toList_ne_nil (numeral : text.IsNumeral) : text.toList ≠ [] := by
  cases numeral with
  | whole nonempty digits => simpa using nonempty
  | pointed nonempty whole fraction => simp

end Text.IsNumeral

namespace Token

section Points

variable {whole between behind : List Glyph}

theorem point_notMem_of_digits
    (digits : ∀ glyph ∈ whole, glyph.isIn Text.isAsciiDigit = true) : Glyph.whole '.' ∉ whole := by
  intro member
  exact absurd (digits _ member) (by decide)

theorem ne_point_of_notMem (noPoint : Glyph.whole '.' ∉ whole) :
    ∀ glyph ∈ whole, (glyph != Glyph.whole '.') = true := by
  intro glyph member
  simpa using ne_of_mem_of_not_mem member noPoint

theorem takeWhile_point (noPoint : Glyph.whole '.' ∉ whole) :
    (whole ++ Glyph.whole '.' :: behind).takeWhile (· != Glyph.whole '.') = whole := by
  rw [List.takeWhile_append_of_pos (ne_point_of_notMem noPoint)]
  simp

theorem dropWhile_point (noPoint : Glyph.whole '.' ∉ whole) :
    (whole ++ Glyph.whole '.' :: behind).dropWhile (· != Glyph.whole '.') =
      Glyph.whole '.' :: behind := by
  rw [List.dropWhile_append_of_pos (ne_point_of_notMem noPoint)]
  simp

theorem secondPoint?_of_notMem (noPoint : Glyph.whole '.' ∉ whole) : secondPoint? whole = none := by
  simp [secondPoint?, List.dropWhile_eq_nil_iff.mpr (ne_point_of_notMem noPoint)]

theorem secondPoint?_of_one (noPoint : Glyph.whole '.' ∉ whole)
    (noOther : Glyph.whole '.' ∉ behind) :
    secondPoint? (whole ++ Glyph.whole '.' :: behind) = none := by
  have all : behind.takeWhile (· != Glyph.whole '.') = behind :=
    List.takeWhile_eq_self_iff.mpr (ne_point_of_notMem noOther)
  simp [secondPoint?, dropWhile_point noPoint, all]

theorem secondPoint?_of_two (noPoint : Glyph.whole '.' ∉ whole)
    (noOther : Glyph.whole '.' ∉ between) :
    secondPoint? (whole ++ Glyph.whole '.' :: (between ++ Glyph.whole '.' :: behind)) =
      some (whole.length + 1 + between.length) := by
  simp [secondPoint?, takeWhile_point noPoint, dropWhile_point noPoint, takeWhile_point noOther]

end Points

/-- A run that is a numeral already makes that numeral. -/
theorem numeral_eq_ok {text : Text} (isNumeral : text.IsNumeral) (position : Nat) :
    numeral text.toList position = .ok ⟨.number, text, position⟩ := by
  have areDigits : ∀ {characters : List Char},
      (∀ digit ∈ characters, Text.isAsciiDigit digit = true) →
      Glyph.whole '.' ∉ characters.map Glyph.whole := by
    intro characters digits
    refine point_notMem_of_digits fun glyph member => ?_
    obtain ⟨digit, inDigits, rfl⟩ := List.mem_map.mp member
    exact digits digit inDigits
  cases isNumeral with
  | @whole digits nonempty isWhole =>
      have noPoint := areDigits isWhole
      have final : (digits.map Glyph.whole).getLast? ≠ some (Glyph.whole '.') := fun last =>
        noPoint (List.mem_of_getLast? last)
      rw [numeral, Text.toList_ofCharacters, secondPoint?_of_notMem noPoint]
      exact if_neg final
  | @pointed whole fraction nonempty isWhole isFraction =>
      have noPoint := areDigits isFraction
      have shape : (whole ++ '.' :: fraction).map Glyph.whole =
          whole.map Glyph.whole ++ Glyph.whole '.' :: fraction.map Glyph.whole := by simp
      have final : ((whole ++ '.' :: fraction).map Glyph.whole).getLast? ≠
          some (Glyph.whole '.') := by
        intro last
        rw [shape, List.getLast?_append_of_ne_nil _ (by simp), List.getLast?_cons_of_ne_nil
          (by simpa using nonempty)] at last
        exact noPoint (List.mem_of_getLast? last)
      rw [numeral, Text.toList_ofCharacters, shape, secondPoint?_of_one (areDigits isWhole) noPoint,
        ← shape]
      exact if_neg final

theorem eq_of_numeral_eq_ok {run : List Glyph} {position : Nat} {token : Token}
    (made : numeral run position = .ok token) : token = ⟨.number, ⟨run⟩, position⟩ := by
  unfold numeral at made
  split at made
  · cases made
  · split at made <;> cases made
    rfl

namespace IsLexeme

variable {token : Token} {glyph : Glyph}

theorem isNumeral_of_kind (lexeme : token.IsLexeme) (kind : token.kind = .number) :
    token.IsNumeral := by
  cases lexeme with
  | numeral numeral => exact numeral
  | additive additive => simp [additive.kind] at kind
  | multiplicative multiplicative => simp [multiplicative.kind] at kind
  | opening opening => simp [opening.kind] at kind
  | closing closing => simp [closing.kind] at kind

/-- All lexemes but numerals are single glyphs. -/
theorem single_of_kind_ne (lexeme : token.IsLexeme) (other : token.kind ≠ .number) :
    ∃ glyph, token.text.toList = [glyph] ∧ singleKind? glyph = some token.kind := by
  cases lexeme with
  | numeral numeral => exact absurd numeral.kind other
  | additive additive =>
      rw [additive.kind]
      rcases additive.text with text | text <;> rw [text] <;> exact ⟨_, rfl, rfl⟩
  | multiplicative multiplicative =>
      rw [multiplicative.kind]
      rcases multiplicative.text with text | text <;> rw [text] <;> exact ⟨_, rfl, rfl⟩
  | opening opening =>
      rw [opening.kind, opening.text]
      exact ⟨_, rfl, rfl⟩
  | closing closing =>
      rw [closing.kind, closing.text]
      exact ⟨_, rfl, rfl⟩

theorem toList_ne_nil (lexeme : token.IsLexeme) : token.text.toList ≠ [] := by
  by_cases kind : token.kind = .number
  · exact (lexeme.isNumeral_of_kind kind).text.toList_ne_nil
  · obtain ⟨glyph, shape, -⟩ := lexeme.single_of_kind_ne kind
    simp [shape]

theorem not_blank (lexeme : token.IsLexeme) (member : glyph ∈ token.text.toList) :
    glyph.isIn Text.isBlank = false := by
  by_cases kind : token.kind = .number
  · exact not_blank_of_isNumeralGlyph
      ((lexeme.isNumeral_of_kind kind).text.isNumeralGlyph glyph member)
  · obtain ⟨single, shape, found⟩ := lexeme.single_of_kind_ne kind
    obtain rfl : glyph = single := by simpa [shape] using member
    exact (not_special_of_singleKind? found).1

theorem isNumeralGlyph_iff (lexeme : token.IsLexeme) (member : glyph ∈ token.text.toList) :
    isNumeralGlyph glyph = true ↔ token.kind = .number := by
  by_cases kind : token.kind = .number
  · exact iff_of_true ((lexeme.isNumeral_of_kind kind).text.isNumeralGlyph glyph member) kind
  · obtain ⟨single, shape, found⟩ := lexeme.single_of_kind_ne kind
    obtain rfl : glyph = single := by simpa [shape] using member
    exact iff_of_false (by simp [(not_special_of_singleKind? found).2]) kind

theorem endsNumeral (lexeme : token.IsLexeme) (other : token.kind ≠ .number)
    {rest : List Glyph} : EndsNumeral (token.text.toList ++ rest) := by
  obtain ⟨glyph, shape, found⟩ := lexeme.single_of_kind_ne other
  rw [shape]
  exact endsNumeral_cons.mpr (not_special_of_singleKind? found).2

end IsLexeme

section Scan

variable {position : Nat} {glyph : Glyph} {rest : List Glyph}

theorem scan_blank (blank : glyph.isIn Text.isBlank = true) :
    scan position (glyph :: rest) = scan (position + 1) rest := by
  rw [scan, if_pos blank]

theorem scan_single {kind : TokenKind} (found : singleKind? glyph = some kind) :
    scan position (glyph :: rest) =
      (scan (position + 1) rest).map (⟨kind, ⟨[glyph]⟩, position⟩ :: ·) := by
  obtain ⟨notBlank, notPlain⟩ := not_special_of_singleKind? found
  rw [scan, notBlank, notPlain, found]
  rfl

/-- A run of digits and points in front of other glyphs is one numeral, or refused as one. -/
theorem scan_run {run : List Glyph} (nonempty : run ≠ [])
    (plain : ∀ glyph ∈ run, isNumeralGlyph glyph = true) (ends : EndsNumeral rest) :
    scan position (run ++ rest) =
      (numeral run position >>= fun token =>
        (scan (position + run.length) rest).map (token :: ·)) := by
  have stops : rest.takeWhile isNumeralGlyph = [] ∧ rest.dropWhile isNumeralGlyph = rest := by
    cases rest with
    | nil => exact ⟨rfl, rfl⟩
    | cons next others => simp [endsNumeral_cons.mp ends]
  obtain ⟨first, others, rfl⟩ := List.exists_cons_of_ne_nil nonempty
  have firstPlain := plain first (by simp)
  have othersPlain : ∀ glyph ∈ others, isNumeralGlyph glyph = true :=
    fun glyph member => plain glyph (by simp [member])
  have taken : (others ++ rest).takeWhile isNumeralGlyph = others := by
    rw [List.takeWhile_append_of_pos othersPlain, stops.1, List.append_nil]
  have dropped : (others ++ rest).dropWhile isNumeralGlyph = rest := by
    rw [List.dropWhile_append_of_pos othersPlain, stops.2]
  rw [List.cons_append, scan, not_blank_of_isNumeralGlyph firstPlain, firstPlain]
  simp only [taken, dropped, Bool.false_eq_true, ↓reduceIte]
  rfl

theorem scan_numeral {text : Text} (isNumeral : text.IsNumeral) (ends : EndsNumeral rest) :
    scan position (text.toList ++ rest) =
      (scan (position + text.length) rest).map (⟨.number, text, position⟩ :: ·) := by
  rw [scan_run isNumeral.toList_ne_nil isNumeral.isNumeralGlyph ends, numeral_eq_ok isNumeral]
  rfl

theorem scan_lexeme {token : Token} (lexeme : token.IsLexeme)
    (ends : token.kind = .number → EndsNumeral rest) (starts : token.position = position) :
    scan position (token.text.toList ++ rest) =
      (scan (position + token.text.length) rest).map (token :: ·) := by
  obtain ⟨kind, text, place⟩ := token
  obtain rfl : place = position := starts
  by_cases isNumber : kind = .number
  · subst isNumber
    exact scan_numeral (lexeme.isNumeral_of_kind rfl).text (ends rfl)
  · obtain ⟨glyph, shape, found⟩ := lexeme.single_of_kind_ne isNumber
    obtain rfl : text = ⟨[glyph]⟩ := Text.ext shape
    exact scan_single found

end Scan

end Token

end Reckon
