import Reckon.Proofs.Runs
import Reckon.Proofs.Streams
import Reckon.Token.Lexer

/-!
# What the lexer returns

Whatever the source, the tokens of a successful lexing are a well-formed stream. A trimmed source
that is not empty starts with a glyph of a lexeme, so the check for a source without tokens never
fails, and what the lexer refuses it refuses for another cause.
-/

set_option autoImplicit false

namespace Reckon.Token

theorem exists_digits {glyphs : List Glyph}
    (digits : ∀ glyph ∈ glyphs, glyph.isIn Text.isAsciiDigit) :
    ∃ characters : List Char, glyphs = characters.map Glyph.whole ∧
      ∀ digit ∈ characters, Text.isAsciiDigit digit := by
  induction glyphs with
  | nil => exact ⟨[], rfl, by simp⟩
  | cons glyph rest ih =>
      obtain ⟨characters, rfl, areDigits⟩ := ih fun other member => digits other (by simp [member])
      have first := digits glyph (by simp)
      cases glyph with
      | half part => simp [Glyph.isIn] at first
      | whole character =>
          refine ⟨character :: characters, rfl, ?_⟩
          intro digit member
          rcases List.mem_cons.mp member with rfl | inRest
          · exact first
          · exact areDigits digit inRest

theorem isIn_digit_of_isNumeralGlyph {glyph : Glyph} (plain : isNumeralGlyph glyph)
    (noPoint : glyph ≠ .whole '.') : glyph.isIn Text.isAsciiDigit := by
  simpa [isNumeralGlyph, noPoint] using plain

theorem not_mem_of_secondPoint?_eq_none {run rest : List Glyph} {glyph : Glyph}
    (single : secondPoint? run = none)
    (behind : run.dropWhile (· != Glyph.whole '.') = glyph :: rest) :
    Glyph.whole '.' ∉ rest := by
  simp only [secondPoint?, behind, List.drop_succ_cons, List.drop_zero] at single
  have whole : ¬ (rest.takeWhile (· != Glyph.whole '.')).length < rest.length := by
    intro shorter
    simp [shorter] at single
  have all : rest.takeWhile (· != Glyph.whole '.') = rest :=
    (List.takeWhile_prefix _).eq_of_length_le (by omega)
  intro member
  have outside := List.takeWhile_eq_self_iff.mp all _ member
  simp at outside

theorem numeral_isNumeral {run : List Glyph} {position : Nat} {token : Token}
    (nonempty : run ≠ []) (plain : ∀ glyph ∈ run, isNumeralGlyph glyph)
    (made : numeral run position = .ok token) : token.IsNumeral := by
  unfold numeral at made
  split at made
  · cases made
  case h_2 single =>
    split at made
    · cases made
    case isFalse finalDigit =>
      cases made
      refine ⟨rfl, ?_⟩
      -- The run is cut at its only point, if it has one.
      have parts := List.takeWhile_append_dropWhile (p := (· != Glyph.whole '.')) (l := run)
      have wholeDigits : ∀ glyph ∈ run.takeWhile (· != Glyph.whole '.'),
          glyph.isIn Text.isAsciiDigit := by
        intro glyph member
        refine isIn_digit_of_isNumeralGlyph (plain glyph (List.takeWhile_subset _ member)) ?_
        simpa using List.mem_takeWhile_imp member
      obtain ⟨whole, wholeShape, areWhole⟩ := exists_digits wholeDigits
      cases behind : run.dropWhile (· != Glyph.whole '.') with
      | nil =>
          rw [behind, List.append_nil, wholeShape] at parts
          subst run
          exact .whole (by simpa using nonempty) areWhole
      | cons point rest =>
          have isPoint : point = .whole '.' := by
            have head :=
              List.head_dropWhile_not (· != Glyph.whole '.') (l := run) (by simp [behind])
            simpa [behind] using head
          subst point
          have noPoint := not_mem_of_secondPoint?_eq_none single behind
          rw [behind, wholeShape] at parts
          have fractionDigits : ∀ glyph ∈ rest, glyph.isIn Text.isAsciiDigit := by
            intro glyph member
            refine isIn_digit_of_isNumeralGlyph (plain glyph (by simp [← parts, member])) ?_
            rintro rfl
            exact noPoint member
          obtain ⟨fraction, rfl, areFraction⟩ := exists_digits fractionDigits
          have fractionNonempty : fraction ≠ [] := by
            rintro rfl
            exact finalDigit (by simp [← parts])
          have pointed := Text.IsNumeral.pointed fractionNonempty areWhole areFraction
          simpa [Text.ofCharacters, ← parts] using pointed

theorem singleKind?_isLexeme {glyph : Glyph} {kind : TokenKind}
    (found : singleKind? glyph = some kind) (position : Nat) :
    IsLexeme ⟨kind, ⟨[glyph]⟩, position⟩ := by
  unfold singleKind? at found
  split at found <;> cases found
  · exact .additive ⟨rfl, .inl rfl⟩
  · exact .additive ⟨rfl, .inr rfl⟩
  · exact .multiplicative ⟨rfl, .inl rfl⟩
  · exact .multiplicative ⟨rfl, .inr rfl⟩
  · exact .opening ⟨rfl, rfl⟩
  · exact .closing ⟨rfl, rfl⟩

theorem isNumeralGlyph_of_mem_run {glyph : Glyph} {rest : List Glyph}
    (plain : isNumeralGlyph glyph) :
    ∀ other ∈ glyph :: rest.takeWhile isNumeralGlyph, isNumeralGlyph other := by
  intro other member
  rcases List.mem_cons.mp member with rfl | inRun
  · exact plain
  · exact List.mem_takeWhile_imp inRun

theorem scan_isLexeme {position : Nat} {glyphs : List Glyph} {tokens : List Token}
    (scanned : scan position glyphs = .ok tokens) : ∀ token ∈ tokens, token.IsLexeme := by
  fun_induction scan position glyphs generalizing tokens with
  | case1 => cases scanned; simp
  | case2 position glyph rest blank ih => exact ih scanned
  | case3 position glyph rest notBlank plain run =>
      rename_i ih
      obtain ⟨first, made, scanned⟩ := except_bind_ok scanned
      obtain ⟨others, behind, scanned⟩ := except_bind_ok scanned
      cases scanned
      intro token member
      rcases List.mem_cons.mp member with rfl | inOthers
      · exact .numeral (numeral_isNumeral (by simp) (isNumeralGlyph_of_mem_run plain) made)
      · exact ih behind token inOthers
  | case4 position glyph rest notBlank notPlain strange => cases scanned
  | case5 position glyph rest notBlank notPlain kind found ih =>
      obtain ⟨others, behind, scanned⟩ := except_bind_ok scanned
      cases scanned
      intro token member
      rcases List.mem_cons.mp member with rfl | inOthers
      · exact singleKind?_isLexeme found position
      · exact ih behind token inOthers

theorem scan_ne_nil {position : Nat} {glyph : Glyph} {rest : List Glyph} {tokens : List Token}
    (notBlank : glyph.isIn Text.isBlank = false)
    (scanned : scan position (glyph :: rest) = .ok tokens) : tokens ≠ [] := by
  rw [scan, notBlank] at scanned
  simp only [Bool.false_eq_true, ↓reduceIte] at scanned
  split at scanned
  · obtain ⟨first, _, scanned⟩ := except_bind_ok scanned
    obtain ⟨others, _, scanned⟩ := except_bind_ok scanned
    cases scanned
    simp
  · split at scanned
    · cases scanned
    · obtain ⟨others, _, scanned⟩ := except_bind_ok scanned
      cases scanned
      simp

/-- What is left of a trimmed text starts with no blank. -/
theorem trim_head_not_blank {source : Text} {glyph : Glyph} {rest : List Glyph}
    (trimmed : (Text.trim source).toList = glyph :: rest) : glyph.isIn Text.isBlank = false := by
  have leading : Text.trimEndBy (Glyph.isIn Text.isBlank)
      (Text.trimStartBy (Glyph.isIn Text.isBlank) source.toList) = glyph :: rest := trimmed
  have front : glyph :: rest <+: source.toList.dropWhile (Glyph.isIn Text.isBlank) := by
    rw [← leading]
    simpa [Text.trimEndBy, Text.trimStartBy] using
      List.reverse_prefix.mpr (List.dropWhile_suffix (Glyph.isIn Text.isBlank)
        (l := (source.toList.dropWhile (Glyph.isIn Text.isBlank)).reverse))
  obtain ⟨behind, shape⟩ := front
  have head := List.head_dropWhile_not (Glyph.isIn Text.isBlank) (l := source.toList)
    (by simp [← shape])
  simpa [← shape] using head

/-- The tokens of a source are a well-formed stream. -/
theorem tokenize_wellFormed {source : Text} {tokens : List Token}
    (lexed : tokenize source = .ok tokens) : WellFormed tokens := by
  unfold tokenize at lexed
  split at lexed
  · cases lexed
  · obtain ⟨lexemes, scanned, lexed⟩ := except_bind_ok lexed
    split at lexed
    · cases lexed
    case isFalse nonempty =>
      cases lexed
      refine ⟨Terminated.append (scan_isLexeme scanned) (.last rfl), ?_⟩
      cases lexemes with
      | nil => simp at nonempty
      | cons first others => simp

/-- A fault of the lexer about the source. -/
def IsLexical (fault : Fault) : Prop :=
  ∃ cause position, fault = .lexical cause position ∧ cause ≠ .noTokens

theorem numeral_isLexical {run : List Glyph} {position : Nat} {fault : Fault}
    (refused : numeral run position = .error fault) : IsLexical fault := by
  unfold numeral at refused
  split at refused
  · cases refused
    exact ⟨_, _, rfl, by simp⟩
  · split at refused <;> cases refused
    exact ⟨_, _, rfl, by simp⟩

theorem scan_isLexical {position : Nat} {glyphs : List Glyph} {fault : Fault}
    (refused : scan position glyphs = .error fault) : IsLexical fault := by
  fun_induction scan position glyphs with
  | case1 => cases refused
  | case2 position glyph rest blank ih => exact ih refused
  | case3 position glyph rest notBlank plain run =>
      rename_i ih
      rcases except_bind_error refused with numeralRefused | ⟨_, _, refused⟩
      · exact numeral_isLexical numeralRefused
      · rcases except_bind_error refused with restRefused | ⟨_, _, refused⟩
        · exact ih restRefused
        · cases refused
  | case4 position glyph rest notBlank notPlain strange =>
      cases refused
      exact ⟨_, _, rfl, by simp⟩
  | case5 position glyph rest notBlank notPlain kind found ih =>
      rcases except_bind_error refused with restRefused | ⟨_, _, refused⟩
      · exact ih restRefused
      · cases refused

/-- What is refused is never refused for want of tokens. -/
theorem tokenize_isLexical {source : Text} {fault : Fault}
    (refused : tokenize source = .error fault) : IsLexical fault := by
  unfold tokenize at refused
  split at refused
  · cases refused
    exact ⟨_, _, rfl, by simp⟩
  case h_2 glyphs nonempty =>
    obtain ⟨glyph, rest, shape⟩ := List.exists_cons_of_ne_nil nonempty
    rcases except_bind_error refused with scanRefused | ⟨tokens, scanned, refused⟩
    · exact scan_isLexical scanRefused
    · rw [shape] at scanned
      have some := scan_ne_nil (trim_head_not_blank shape) scanned
      rw [if_neg (by simpa using some)] at refused
      cases refused

end Reckon.Token
