import Reckon.Json.Reader
import Reckon.Json.Writer
import Reckon.Proofs.Json.Values
import Reckon.Proofs.Runs

/-!
# Texts between quotes

What stands for a character between quotes is read as that character: the character itself, an
escape with a letter, or one or two escapes with hexadecimal digits. So a string is read back from
what is written for it, whatever follows.
-/

set_option autoImplicit false

namespace Reckon.Json

section Digits

variable {width number code : Nat} {rest : List Char}

theorem hexValue?_hexDigit {value : Nat} (small : value < 16) :
    hexValue? (Text.hexDigit value) = some value := by
  revert value
  decide

theorem length_hexDigits (width number : Nat) : (Text.hexDigits width number).length = width := by
  induction width generalizing number with
  | zero => rfl
  | succ width ih => simp [Text.hexDigits, ih]

theorem hexNumber?_hexDigits (small : number < Nat.pow 16 width) :
    hexNumber? (Text.hexDigits width number) = some number := by
  induction width generalizing number with
  | zero =>
      obtain rfl : number = 0 := by simpa using small
      rfl
  | succ width ih =>
      have front : hexNumber? (Text.hexDigits width (number / 16)) = some (number / 16) := by
        apply ih
        exact Nat.div_lt_of_lt_mul (Nat.mul_comm 16 _ ▸ small)
      have last : hexValue? (Text.hexDigit (number % 16)) = some (number % 16) :=
        hexValue?_hexDigit (Nat.mod_lt _ (by decide))
      unfold hexNumber? at front ⊢
      rw [Text.hexDigits, List.foldlM_append, front]
      simp [last]
      omega

theorem take_hexDigits (code : Nat) (rest : List Char) :
    (Text.hexDigits 4 code ++ rest).take 4 = Text.hexDigits 4 code :=
  List.take_left' (length_hexDigits 4 code)

theorem drop_hexDigits (code : Nat) (rest : List Char) :
    (Text.hexDigits 4 code ++ rest).drop 4 = rest :=
  List.drop_left' (length_hexDigits 4 code)

theorem hexNumber?_four (small : code < 0x10000) :
    hexNumber? (Text.hexDigits 4 code) = some code :=
  hexNumber?_hexDigits small

theorem unitCode?_hexDigits (small : code < 0x10000) (some : rest ≠ []) :
    unitCode? (Text.hexDigits 4 code ++ rest) = .some code := by
  rw [unitCode?, drop_hexDigits, take_hexDigits, if_neg (by simpa using some)]
  exact hexNumber?_four small

end Digits

section Escapes

variable {code : Nat} {rest : List Char} {part lower : Half} {character : Char}

theorem ofCode?_code (part : Half) : Half.ofCode? part.code = some part := by
  have bound := part.index.isLt
  have inRange : 0xd800 ≤ part.code ∧ part.code < 0xe000 := by
    unfold Half.code
    omega
  rw [Half.ofCode?, dif_pos inRange]
  simp [Half.code]

theorem ofCode?_toNat (character : Char) : Half.ofCode? character.toNat = none := by
  have valid : character.toNat < 0xd800 ∨ 0xdfff < character.toNat ∧ character.toNat < 0x110000 :=
    character.valid
  rw [Half.ofCode?, dif_neg (by omega)]

theorem code_lt (part : Half) : part.code < 0x10000 := by
  have bound := part.index.isLt
  unfold Half.code
  omega

theorem unitEscaped_character (small : character.toNat < 0x10000) (some : rest ≠ []) :
    unitEscaped ('u' :: (Text.hexDigits 4 character.toNat ++ rest)) =
      .ok (.whole character, rest) := by
  unfold unitEscaped
  simp only [List.drop_succ_cons, List.drop_zero, unitCode?_hexDigits small some,
    ofCode?_toNat, Char.ofNat_toNat, drop_hexDigits]

/-- The escapes of an upper and a lower half in a row are those of one character. -/
theorem unitEscaped_halves (isUpper : part.isUpper = true) (isLower : lower.isUpper = false)
    (some : rest ≠ []) :
    unitEscaped ('u' :: (Text.hexDigits 4 part.code ++ (unitEscape lower.code ++ rest))) =
      .ok (.whole (part.join lower), rest) := by
  -- The reader looks for a second escape only when something stands behind it.
  have behind : unitEscape lower.code ++ rest ≠ [] := by simp [unitEscape]
  have others : ((unitEscape lower.code ++ rest).drop 6).isEmpty = false := by
    simpa [unitEscape, drop_hexDigits] using some
  unfold unitEscaped
  simp only [List.drop_succ_cons, List.drop_zero, unitCode?_hexDigits (code_lt part) behind,
    ofCode?_code, drop_hexDigits]
  unfold halfEscaped
  rw [if_pos (by rw [isUpper, others]; rfl)]
  simp only [unitEscape, List.cons_append, take_hexDigits, hexNumber?_four (code_lt lower),
    ofCode?_code, drop_hexDigits, Option.filter_some, isLower]
  rfl

/-- A character is written as it is, by an escape with a letter, or by its code in one or two
escapes. -/
inductive IsEscape : Char → List Char → Prop where
  | plain {character : Char} :
      IsAscii character → character ≠ '\x22' → character ≠ '\\' → IsEscape character [character]
  | letter {character letter : Char} :
      letter ≠ 'u' → simpleEscape? letter = some character → IsEscape character ['\\', letter]
  | unit {character : Char} :
      character.toNat < 0x10000 → IsEscape character (unitEscape character.toNat)
  | halves {upper lower : Half} :
      upper.isUpper = true → lower.isUpper = false →
      IsEscape (upper.join lower) (unitEscape upper.code ++ unitEscape lower.code)

/-- The halves of a character beyond the first plane. -/
theorem exists_halves (large : 0x10000 ≤ character.toNat) :
    ∃ upper lower : Half, upper.isUpper = true ∧ lower.isUpper = false ∧
      upper.code = 0xd800 + (character.toNat - 0x10000) / 0x400 ∧
      lower.code = 0xdc00 + (character.toNat - 0x10000) % 0x400 ∧
      upper.join lower = character := by
  have valid : character.toNat < 0xd800 ∨ 0xdfff < character.toNat ∧ character.toNat < 0x110000 :=
    character.valid
  set offset := character.toNat - 0x10000 with offset_eq
  refine ⟨⟨⟨offset / 0x400, by omega⟩⟩, ⟨⟨0x400 + offset % 0x400, by omega⟩⟩, ?_, ?_, rfl, ?_, ?_⟩
  · simp only [Half.isUpper, decide_eq_true_eq]
    omega
  · simp [Half.isUpper]
  · simp only [Half.code]
    omega
  · have code : 0x10000 + offset / 0x400 * 0x400 + (0x400 + offset % 0x400 - 0x400) =
        character.toNat := by omega
    simp only [Half.join, code, Char.ofNat_toNat]

theorem isEscape_escapedCharacter (character : Char) :
    IsEscape character (escapedCharacter character) := by
  unfold escapedCharacter
  simp only [beq_iff_eq]
  split_ifs with quote backslash feed return_ tab formFeed backspace printable small
  · subst quote
    exact .letter (by decide) rfl
  · subst backslash
    exact .letter (by decide) rfl
  · subst feed
    exact .letter (by decide) rfl
  · subst return_
    exact .letter (by decide) rfl
  · subst tab
    exact .letter (by decide) rfl
  · obtain rfl : character = '\x0c' := Char.toNat_inj.mp formFeed
    exact .letter (by decide) rfl
  · obtain rfl : character = '\x08' := Char.toNat_inj.mp backspace
    exact .letter (by decide) rfl
  · simp only [Bool.and_eq_true, decide_eq_true_eq] at printable
    exact .plain printable quote backslash
  · exact .unit small
  · obtain ⟨upper, lower, isUpper, isLower, upperCode, lowerCode, joined⟩ :=
      exists_halves (Nat.not_lt.mp small)
    rw [← upperCode, ← lowerCode]
    nth_rewrite 1 [← joined]
    exact .halves isUpper isLower

end Escapes

section Reading

variable {opening rest : List Char} {bound : Nat} {character : Char} {escape : List Char}

/-- A glyph in front of what is read behind it. -/
def behindGlyph (glyph : Glyph) (read : Except Stop (List Glyph × List Char)) :
    Except Stop (List Glyph × List Char) := do
  let (glyphs, behind) ← read
  return (glyph :: glyphs, behind)

theorem textFrom_unit {glyph : Glyph} {digits behind : List Char}
    (escaped : unitEscaped ('u' :: digits) = .ok (glyph, behind)) (opening : List Char)
    (bound : Nat) :
    textFrom opening (bound + 1) ('\\' :: 'u' :: digits) =
      behindGlyph glyph (textFrom opening bound behind) := by
  rw [textFrom]
  simp only [escaped]
  rfl

theorem textFrom_escape (isEscape : IsEscape character escape) (some : rest ≠ [])
    (opening : List Char) (bound : Nat) :
    textFrom opening (bound + 1) (escape ++ rest) =
      behindGlyph (.whole character) (textFrom opening bound rest) := by
  cases isEscape with
  | plain isAscii notQuote notBackslash =>
      have notControl := isAscii.1
      rw [List.cons_append, List.nil_append, textFrom.eq_def]
      simp only
      rw [if_neg (by simpa using notQuote), if_neg (by simpa using notBackslash),
        if_neg (by omega)]
      rfl
  | letter notUnit isSimple =>
      rw [List.cons_append, List.cons_append, List.nil_append, textFrom]
      simp [notUnit, isSimple]
      rfl
  | unit small => exact textFrom_unit (unitEscaped_character small some) opening bound
  | @halves upper lower isUpper isLower =>
      have both := unitEscaped_halves isUpper isLower some
      rw [List.append_assoc]
      exact textFrom_unit both opening bound

theorem textFrom_quote (opening rest : List Char) (bound : Nat) :
    textFrom opening (bound + 1) ('\x22' :: rest) = .ok ([], rest) := by
  rw [textFrom.eq_def]
  rfl

theorem textFrom_characters {characters : List Char} (enough : characters.length < bound)
    (opening rest : List Char) :
    textFrom opening bound (characters.flatMap escapedCharacter ++ '\x22' :: rest) =
      .ok (characters.map Glyph.whole, rest) := by
  induction characters generalizing bound with
  | nil =>
      obtain ⟨bound, rfl⟩ := Nat.exists_eq_succ_of_ne_zero (Nat.ne_of_gt enough)
      exact textFrom_quote opening rest bound
  | cons character others ih =>
      obtain ⟨bound, rfl⟩ := Nat.exists_eq_succ_of_ne_zero (Nat.ne_of_gt (Nat.zero_lt_of_lt enough))
      rw [List.flatMap_cons, List.append_assoc,
        textFrom_escape (isEscape_escapedCharacter character) (by simp), ih (by simpa using enough)]
      rfl

theorem textCharacters_ofCharacters (characters : List Char) :
    textCharacters (.ofCharacters characters) =
      '\x22' :: (characters.flatMap escapedCharacter ++ ['\x22']) := by
  simp [textCharacters, List.flatMap_map, escapedGlyph]

theorem IsEscape.ne_nil (isEscape : IsEscape character escape) : escape ≠ [] := by
  cases isEscape <;> simp [unitEscape]

theorem length_le_flatMap_escaped (characters : List Char) :
    characters.length ≤ (characters.flatMap escapedCharacter).length := by
  induction characters with
  | nil => exact Nat.le_refl 0
  | cons character others ih =>
      have some := List.length_pos_iff.mpr (isEscape_escapedCharacter character).ne_nil
      rw [List.flatMap_cons, List.length_append, List.length_cons]
      omega

/-- A string is read back from what is written for it. -/
theorem readText_textCharacters {text : Text} (isString : text.IsString) (rest : List Char) :
    readText (textCharacters text ++ rest) = .ok (text, rest) := by
  obtain ⟨characters, rfl⟩ := isString
  have enough := length_le_flatMap_escaped characters
  rw [textCharacters_ofCharacters, readText, List.cons_append, List.append_assoc,
    List.drop_succ_cons, List.drop_zero, List.singleton_append, textFrom_characters]
  · rfl
  · rw [List.length_cons, List.length_append]
    omega

end Reading

end Reckon.Json
