import Reckon.Proofs.Scanning
import Reckon.Proofs.Trimming

/-!
# Spellings

When tokens spell a text, said without scanning it: blanks apart the text is the texts of the tokens
in a row, and no numeral among them could be longer than it is. The lexer finds the tokens that
spell the trimmed source and no others. Spellings can be moved along and put together, so a source
that is made of others is lexed by its parts.
-/

set_option autoImplicit false

namespace Reckon

namespace Token

/-- Tokens spell glyphs from a position on. -/
inductive Spells : Int → List Token → List Glyph → Prop where
  | done {position : Int} : Spells position [] []
  | blank {position : Int} {tokens : List Token} {glyph : Glyph} {rest : List Glyph} :
      glyph.isIn Text.isBlank = true → Spells (position + 1) tokens rest →
      Spells position tokens (glyph :: rest)
  | lexeme {token : Token} {tokens : List Token} {rest : List Glyph} :
      token.IsLexeme → (token.kind = .number → EndsNumeral rest) →
      Spells (token.position + token.text.length) tokens rest →
      Spells token.position (token :: tokens) (token.text.toList ++ rest)

theorem Spells.scan_eq {tokens : List Token} {glyphs : List Glyph} {start : Int}
    (spells : Spells start tokens glyphs) {position : Nat} (starts : start = position) :
    scan position glyphs = .ok tokens := by
  induction spells generalizing position with
  | done => rw [scan]
  | blank isBlank _ ih =>
      rw [scan_blank isBlank]
      exact ih (by omega)
  | lexeme isLexeme ends _ ih =>
      rw [scan_lexeme isLexeme ends starts, ih (by omega)]
      rfl

theorem Spells.in_front {position : Int} {token : Token} {tokens : List Token}
    {glyphs rest : List Glyph} (isLexeme : token.IsLexeme) (starts : token.position = position)
    (shape : glyphs = token.text.toList ++ rest)
    (ends : token.kind = .number → EndsNumeral rest)
    (behind : Spells (position + token.text.toList.length) tokens rest) :
    Spells position (token :: tokens) glyphs := by
  subst starts shape
  exact .lexeme isLexeme ends behind

theorem spells_of_scan {position : Nat} {glyphs : List Glyph} {tokens : List Token}
    (scanned : scan position glyphs = .ok tokens) : Spells position tokens glyphs := by
  have lexemes := scan_isLexeme scanned
  fun_induction scan position glyphs generalizing tokens with
  | case1 =>
      cases scanned
      exact .done
  | case2 position glyph rest blank ih => exact .blank blank (ih scanned lexemes)
  | case3 position glyph rest notBlank plain run =>
      rename_i ih
      obtain ⟨first, made, scanned⟩ := except_bind_ok scanned
      obtain ⟨others, behind, scanned⟩ := except_bind_ok scanned
      cases scanned
      obtain rfl := eq_of_numeral_eq_ok made
      have parts : glyph :: rest = run ++ rest.dropWhile isNumeralGlyph := by
        simp [run, List.takeWhile_append_dropWhile]
      have ends : EndsNumeral (rest.dropWhile isNumeralGlyph) := endsNumeral_dropWhile rest
      have isLexeme := lexemes ⟨.number, ⟨run⟩, position⟩ (by simp)
      have others := ih behind fun token member => lexemes token (by simp [member])
      exact .in_front isLexeme rfl parts (fun _ => ends) (by simpa using others)
  | case4 position glyph rest notBlank notPlain strange => cases scanned
  | case5 position glyph rest notBlank notPlain kind found ih =>
      obtain ⟨others, behind, scanned⟩ := except_bind_ok scanned
      cases scanned
      have isNumber : kind ≠ .number := by
        rintro rfl
        unfold singleKind? at found
        split at found <;> cases found
      have isLexeme := lexemes ⟨kind, ⟨[glyph]⟩, position⟩ (by simp)
      have others := ih behind fun token member => lexemes token (by simp [member])
      exact .in_front isLexeme rfl rfl (fun isNumeral => absurd isNumeral isNumber)
        (by simpa using others)

/-- Scanning finds the tokens that spell the glyphs, when there are such tokens. -/
theorem scan_eq_ok_iff {position : Nat} {glyphs : List Glyph} {tokens : List Token} :
    scan position glyphs = .ok tokens ↔ Spells position tokens glyphs :=
  ⟨spells_of_scan, fun spells => spells.scan_eq rfl⟩

section Parts

variable {position : Int} {tokens left right : List Token} {glyph : Glyph}
  {glyphs rest gap : List Glyph}

def moved (offset : Int) (token : Token) : Token :=
  { token with position := token.position + offset }

theorem Spells.moved (spells : Spells position tokens glyphs) (offset : Int) :
    Spells (position + offset) (tokens.map (Token.moved offset)) glyphs := by
  induction spells with
  | done => exact .done
  | @blank position tokens glyph rest isBlank _ ih =>
      refine .blank isBlank ?_
      rwa [Int.add_right_comm] at ih
  | @lexeme token tokens rest isLexeme ends _ ih =>
      refine .in_front (isLexeme.of_same rfl rfl) rfl rfl ends ?_
      rwa [Int.add_right_comm] at ih

theorem Spells.append (spells : Spells position left glyphs) (ends : EndsNumeral rest)
    (behind : Spells (position + glyphs.length) right rest) :
    Spells position (left ++ right) (glyphs ++ rest) := by
  induction spells with
  | done => simpa using behind
  | @blank position tokens glyph glyphs isBlank _ ih =>
      refine .blank isBlank (ih ?_)
      have place : position + 1 + glyphs.length = position + (glyph :: glyphs).length := by
        simp only [List.length_cons]
        omega
      rwa [place]
  | @lexeme token tokens glyphs isLexeme tokenEnds _ ih =>
      refine .in_front isLexeme rfl (List.append_assoc ..)
        (fun kind => (tokenEnds kind).append ends) (ih ?_)
      have place : token.position + token.text.length + glyphs.length =
          token.position + (token.text.toList ++ glyphs).length := by
        simp only [List.length_append, Text.length]
        omega
      rwa [place]

theorem spells_nil_of_blank (blank : ∀ glyph ∈ gap, glyph.isIn Text.isBlank = true) :
    Spells position [] gap := by
  induction gap generalizing position with
  | nil => exact .done
  | cons glyph rest ih =>
      exact .blank (blank glyph (by simp)) (ih fun other member => blank other (by simp [member]))

theorem Spells.eq_nil_of_blank (spells : Spells position tokens gap)
    (blank : ∀ glyph ∈ gap, glyph.isIn Text.isBlank = true) : tokens = [] := by
  induction spells with
  | done => rfl
  | blank _ _ ih => exact ih fun other member => blank other (by simp [member])
  | @lexeme token tokens rest isLexeme _ _ _ =>
      obtain ⟨first, others, shape⟩ := List.exists_cons_of_ne_nil isLexeme.toList_ne_nil
      have notBlank : first.isIn Text.isBlank = false := isLexeme.not_blank (by simp [shape])
      simp [blank first (by simp [shape])] at notBlank

theorem Spells.tail_of_blank (spells : Spells position tokens (glyph :: rest))
    (blank : glyph.isIn Text.isBlank = true) : Spells (position + 1) tokens rest := by
  generalize shape : glyph :: rest = glyphs at spells
  cases spells with
  | done => cases shape
  | blank _ behind =>
      cases shape
      exact behind
  | @lexeme token _ _ isLexeme _ _ =>
      obtain ⟨first, others, textShape⟩ := List.exists_cons_of_ne_nil isLexeme.toList_ne_nil
      rw [textShape] at shape
      obtain ⟨rfl, -⟩ := List.cons.inj shape
      have notBlank : glyph.isIn Text.isBlank = false := isLexeme.not_blank (by simp [textShape])
      simp [blank] at notBlank

/-- Blanks in front only move what comes behind them. -/
theorem spells_blank_append_iff (blank : ∀ glyph ∈ gap, glyph.isIn Text.isBlank = true) :
    Spells position tokens (gap ++ glyphs) ↔ Spells (position + gap.length) tokens glyphs := by
  induction gap generalizing position with
  | nil => simp
  | cons glyph rest ih =>
      have place : position + 1 + rest.length = position + (glyph :: rest).length := by
        simp only [List.length_cons]
        omega
      rw [← place, ← ih fun other member => blank other (by simp [member])]
      exact ⟨fun spells => spells.tail_of_blank (blank glyph (by simp)),
        .blank (blank glyph (by simp))⟩

theorem Spells.without_blank (spells : Spells position tokens (glyphs ++ gap))
    (blank : ∀ glyph ∈ gap, glyph.isIn Text.isBlank = true) : Spells position tokens glyphs := by
  generalize shape : glyphs ++ gap = all at spells
  induction spells generalizing glyphs with
  | done =>
      obtain ⟨rfl, -⟩ := List.append_eq_nil_iff.mp shape
      exact .done
  | @blank position tokens first others isBlank behind ih =>
      cases glyphs with
      | nil =>
          obtain rfl : gap = first :: others := shape
          obtain rfl := behind.eq_nil_of_blank fun glyph member => blank glyph (by simp [member])
          exact .done
      | cons glyph rest =>
          obtain ⟨rfl, behindShape⟩ := List.cons.inj shape
          exact .blank isBlank (ih behindShape)
  | @lexeme token tokens others isLexeme ends behind ih =>
      -- A lexeme has no blanks, so it ends before the gap begins.
      obtain ⟨between, rfl, rfl⟩ : ∃ between, glyphs = token.text.toList ++ between ∧
          others = between ++ gap := by
        rcases List.append_eq_append_iff.mp shape with
          ⟨cut, textShape, gapShape⟩ | ⟨between, glyphsShape, othersShape⟩
        · cases cut with
          | nil => exact ⟨[], by simpa using textShape.symm, by simpa using gapShape.symm⟩
          | cons glyph cut =>
              have notBlank : glyph.isIn Text.isBlank = false :=
                isLexeme.not_blank (by simp [textShape])
              simp [blank glyph (by simp [gapShape])] at notBlank
        · exact ⟨between, glyphsShape, othersShape⟩
      exact .lexeme isLexeme (fun kind => (ends kind).of_append) (ih rfl)

end Parts

end Token

namespace Text

/-- The blanks in front of a text. -/
def leading (text : Text) : List Glyph :=
  text.toList.takeWhile (Glyph.isIn isBlank)

end Text

namespace Token

variable {source : Text} {tokens : List Token}

/-- Trimming a text moves the tokens that spell it by the blanks in front of them. -/
theorem spells_trim_iff {position : Int} :
    Spells (position + source.leading.length) tokens (Text.trim source).toList ↔
      Spells position tokens source.toList := by
  obtain ⟨trailing, shape, blank⟩ := Text.exists_of_trimBy (Glyph.isIn Text.isBlank) source.toList
  have leadingBlank : ∀ glyph ∈ source.leading, glyph.isIn Text.isBlank = true :=
    fun glyph member => List.mem_takeWhile_imp member
  rw [shape]
  change _ ↔ Spells position tokens (source.leading ++ ((Text.trim source).toList ++ trailing))
  rw [spells_blank_append_iff leadingBlank]
  constructor
  · intro spells
    simpa using spells.append (endsNumeral_of_blank blank) (spells_nil_of_blank blank)
  · exact fun spells => spells.without_blank blank

/-- The token at the end of a trimmed source. -/
def endOf (source : Text) : Token :=
  ⟨.endOfInput, "", (Text.trim source).length⟩

/-- The lexer returns the tokens that spell the trimmed source, with the end of input behind. -/
theorem tokenize_eq_ok_iff :
    tokenize source = .ok tokens ↔
      ∃ lexemes, lexemes ≠ [] ∧ Spells 0 lexemes (Text.trim source).toList ∧
        tokens = lexemes ++ [endOf source] := by
  unfold tokenize
  split
  case h_1 empty =>
    rw [empty]
    refine iff_of_false nofun ?_
    rintro ⟨lexemes, nonempty, spells, -⟩
    exact nonempty (spells.eq_nil_of_blank (by simp))
  case h_2 glyphs _ =>
    constructor
    · intro lexed
      obtain ⟨lexemes, scanned, lexed⟩ := except_bind_ok lexed
      split at lexed
      · cases lexed
      case isFalse nonempty =>
        cases lexed
        exact ⟨lexemes, by simpa using nonempty, scan_eq_ok_iff.mp scanned, rfl⟩
    · rintro ⟨lexemes, nonempty, spells, rfl⟩
      rw [scan_eq_ok_iff.mpr spells]
      change (if lexemes.isEmpty then _ else _) = _
      rw [if_neg (by simpa using nonempty)]
      rfl

/-- A source is lexed to the tokens that spell it, when positions count from the first glyph that is
not blank. -/
theorem Spells.tokenize_eq (spells : Spells (-source.leading.length) tokens source.toList)
    (nonempty : tokens ≠ []) : tokenize source = .ok (tokens ++ [endOf source]) := by
  refine tokenize_eq_ok_iff.mpr ⟨tokens, nonempty, ?_, rfl⟩
  have trimmed := spells_trim_iff.mpr spells
  rwa [Int.add_left_neg] at trimmed

/-- The tokens of a source spell it, trimmed or not, from any position on. -/
theorem exists_spells_of_tokenize (lexed : tokenize source = .ok tokens) (position : Int) :
    ∃ lexemes, lexemes ≠ [] ∧ tokens = lexemes ++ [endOf source] ∧
      Spells position (lexemes.map (Token.moved (position + source.leading.length)))
        source.toList := by
  obtain ⟨lexemes, nonempty, spells, rfl⟩ := tokenize_eq_ok_iff.mp lexed
  refine ⟨lexemes, nonempty, rfl, spells_trim_iff.mp ?_⟩
  simpa using spells.moved (position + source.leading.length)

end Token

end Reckon
