import Reckon.Proofs.Json.RoundTrip

/-!
# What is written

Only printable ASCII is written for a value on one line, so no value reaches beyond its line.
-/

set_option autoImplicit false

namespace Reckon.Json

open Text (HasExponent isAsciiDigit)

def AllAscii (characters : List Char) : Prop :=
  ∀ character ∈ characters, IsAscii character

instance (characters : List Char) : Decidable (AllAscii characters) :=
  List.decidableBAll IsAscii characters

section Lists

variable {front back : List Char} {character : Char}

theorem AllAscii.nil : AllAscii [] := List.forall_mem_nil _

theorem AllAscii.cons (first : IsAscii character) (others : AllAscii back) :
    AllAscii (character :: back) :=
  List.forall_mem_cons.mpr ⟨first, others⟩

theorem AllAscii.append (first : AllAscii front) (others : AllAscii back) :
    AllAscii (front ++ back) :=
  List.forall_mem_append.mpr ⟨first, others⟩

theorem AllAscii.intercalate {separator : List Char} {parts : List (List Char)}
    (between : AllAscii separator) (each : ∀ part ∈ parts, AllAscii part) :
    AllAscii (separator.intercalate parts) := by
  induction parts with
  | nil => exact .nil
  | cons part others ih =>
      simp only [List.forall_mem_cons] at each
      cases others with
      | nil => exact List.intercalate_singleton ▸ each.1
      | cons next more =>
          rw [List.intercalate_cons_cons]
          exact (each.1.append between).append (ih each.2)

theorem isAscii_of_isAsciiDigit (digit : isAsciiDigit character = true) : IsAscii character := by
  obtain ⟨least, most⟩ := Text.code_of_isAsciiDigit digit
  constructor
  · omega
  · omega

theorem allAscii_digits {digits : List Char}
    (areDigits : ∀ digit ∈ digits, isAsciiDigit digit = true) : AllAscii digits :=
  fun digit member => isAscii_of_isAsciiDigit (areDigits digit member)

end Lists

section Texts

variable {character : Char} {escape : List Char}

theorem allAscii_hexDigits (width number : Nat) : AllAscii (Text.hexDigits width number) := by
  have each : ∀ value < 16, IsAscii (Text.hexDigit value) := by decide
  induction width generalizing number with
  | zero => exact .nil
  | succ width ih =>
      exact (ih (number / 16)).append (.cons (each _ (Nat.mod_lt _ (by decide))) .nil)

theorem allAscii_unitEscape (code : Nat) : AllAscii (unitEscape code) :=
  .cons (by decide) (.cons (by decide) (allAscii_hexDigits 4 code))

theorem isAscii_of_simpleEscape? {letter : Char}
    (isSimple : simpleEscape? letter = some character) : IsAscii letter := by
  unfold simpleEscape? at isSimple
  split at isSimple <;> first | decide | cases isSimple

theorem IsEscape.allAscii (isEscape : IsEscape character escape) : AllAscii escape := by
  cases isEscape with
  | plain isAscii => exact .cons isAscii .nil
  | letter notUnit isSimple =>
      exact .cons (by decide) (.cons (isAscii_of_simpleEscape? isSimple) .nil)
  | unit => exact allAscii_unitEscape _
  | halves => exact (allAscii_unitEscape _).append (allAscii_unitEscape _)

theorem allAscii_textCharacters (text : Text) : AllAscii (textCharacters text) := by
  apply AllAscii.cons (by decide)
  apply AllAscii.append
  · intro character member
    obtain ⟨glyph, -, inEscape⟩ := List.mem_flatMap.mp member
    cases glyph with
    | whole source => exact (isEscape_escapedCharacter source).allAscii character inEscape
    | half part => exact allAscii_unitEscape part.code character inEscape
  · exact .cons (by decide) .nil

end Texts

section Numerals

variable {characters ending : List Char} {exponent : Int}

theorem allAscii_signText (negative : Bool) : AllAscii (Double.signText negative) := by
  cases negative with
  | true => exact .cons (by decide) .nil
  | false => exact .nil

theorem allAscii_of_takeSign (behind : AllAscii (Text.takeSign characters).2) :
    AllAscii characters := by
  unfold Text.takeSign at behind
  split at behind
  · exact .cons (by decide) behind
  · exact .cons (by decide) behind
  · exact behind

theorem allAscii_of_hasExponent (ends : HasExponent ending exponent) : AllAscii ending := by
  by_cases none : ending = []
  · rw [none]
    exact .nil
  · obtain ⟨mark, written, rfl, isMark, -, areDigits, -⟩ := ends.exists_digits none
    apply AllAscii.cons
    · simp only [Bool.or_eq_true, beq_iff_eq] at isMark
      rcases isMark with rfl | rfl <;> decide
    · exact allAscii_of_takeSign (allAscii_digits areDigits)

theorem IsFractional.allAscii (isFractional : IsFractional ending) : AllAscii ending := by
  cases isFractional with
  | pointed nonempty areDigits ends =>
      exact .cons (by decide) ((allAscii_digits areDigits).append (allAscii_of_hasExponent ends))
  | scaled nonempty ends => exact allAscii_of_hasExponent ends

theorem allAscii_integerCharacters (value : Int) : AllAscii (integerCharacters value) :=
  (allAscii_signText _).append (allAscii_digits fun _ => Double.isAsciiDigit_of_mem_decimalDigits)

theorem allAscii_realCharacters (value : Double) : AllAscii (realCharacters value) := by
  cases value with
  | nan => decide
  | infinite negative => exact (allAscii_signText negative).append (by decide)
  | finite negative code =>
      obtain ⟨whole, ending, layout, isWhole, isFractional, -⟩ :=
        exists_split_of_finite negative code
      rw [realCharacters, layout]
      · exact (allAscii_signText negative).append
          ((allAscii_digits isWhole.areDigits).append isFractional.allAscii)
      · simp
      · simp

end Numerals

theorem IsProper.allAscii {value : Json} (proper : value.IsProper) (level : Nat) :
    AllAscii (value.characters .line level) := by
  have between : AllAscii [',', ' '] := by decide
  induction proper generalizing level with
  | null => exact (by decide : AllAscii "null".toList)
  | @boolean value =>
      rw [characters]
      split
      · decide
      · decide
  | @integer value => exact allAscii_integerCharacters value
  | @real value => exact allAscii_realCharacters value
  | @text value => exact allAscii_textCharacters value
  | @list items _ ih =>
      rw [characters_list]
      apply AllAscii.cons (by decide)
      apply AllAscii.append _ (by decide)
      apply between.intercalate
      intro part member
      obtain ⟨item, inItems, rfl⟩ := List.mem_map.mp member
      exact ih item inItems (level + 1)
  | @object members _ _ _ ih =>
      rw [characters_object]
      apply AllAscii.cons (by decide)
      apply AllAscii.append _ (by decide)
      apply between.intercalate
      intro part member
      obtain ⟨source, inSorted, rfl⟩ := List.mem_map.mp member
      have inMembers := (sortMembers_perm members).mem_iff.mp inSorted
      apply (allAscii_textCharacters source.1).append
      exact .cons (by decide) (.cons (by decide) (ih source inMembers (level + 1)))

end Reckon.Json
