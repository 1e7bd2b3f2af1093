import Reckon.Proofs.Positions
import Reckon.Proofs.Spellings

/-!
# Spacing

A source is made of lexemes and of blanks around them, which are free except that two numerals in a
row must be kept apart. The lexer finds the lexemes again whatever the blanks, and every source that
it takes is made so. Parsers do not see the blanks, so spacing a source in another way changes
neither its tree nor what is wrong with it.
-/

set_option autoImplicit false

namespace Reckon

/-- A lexeme away from any source. -/
structure Lexeme where
  kind : TokenKind
  text : Text
  isLexeme : (⟨kind, text, 0⟩ : Token).IsLexeme

namespace Lexeme

def ofToken (token : Token) (isLexeme : token.IsLexeme) : Lexeme :=
  ⟨token.kind, token.text, isLexeme.of_same rfl rfl⟩

def token (lexeme : Lexeme) (position : Int) : Token :=
  ⟨lexeme.kind, lexeme.text, position⟩

theorem token_isLexeme (lexeme : Lexeme) (position : Int) : (lexeme.token position).IsLexeme :=
  lexeme.isLexeme.of_same rfl rfl

end Lexeme

structure Gap where
  glyphs : List Glyph
  blank : ∀ glyph ∈ glyphs, glyph.isIn Text.isBlank = true

structure Piece where
  lexeme : Lexeme
  gap : Gap

namespace Piece

def written : List Piece → List Glyph
  | [] => []
  | piece :: rest => piece.lexeme.text.toList ++ (piece.gap.glyphs ++ written rest)

/-- The tokens of pieces that are written from a position on. -/
def placed (position : Int) : List Piece → List Token
  | [] => []
  | piece :: rest =>
    piece.lexeme.token position ::
      placed (position + piece.lexeme.text.length + piece.gap.glyphs.length) rest

/-- Two numerals in a row have a blank between them. -/
def Apart (left right : Piece) : Prop :=
  left.lexeme.kind = .number → right.lexeme.kind = .number → left.gap.glyphs ≠ []

variable {piece : Piece} {pieces rest : List Piece} {position : Int}

theorem exists_written_cons (piece : Piece) (rest : List Piece) :
    ∃ glyph others, written (piece :: rest) = glyph :: others ∧
      glyph.isIn Text.isBlank = false ∧
      (Token.isNumeralGlyph glyph = true ↔ piece.lexeme.kind = .number) := by
  have isLexeme := piece.lexeme.isLexeme
  obtain ⟨glyph, others, shape⟩ := List.exists_cons_of_ne_nil isLexeme.toList_ne_nil
  change piece.lexeme.text.toList = _ at shape
  have member : glyph ∈ piece.lexeme.text.toList := by simp [shape]
  refine ⟨glyph, others ++ (piece.gap.glyphs ++ written rest), ?_,
    isLexeme.not_blank member, isLexeme.isNumeralGlyph_iff member⟩
  rw [written, shape, List.cons_append]

theorem endsNumeral_written :
    Token.EndsNumeral (written pieces) ↔ ∀ piece ∈ pieces.head?, piece.lexeme.kind ≠ .number := by
  cases pieces with
  | nil => simp [written, Token.EndsNumeral]
  | cons piece rest =>
      obtain ⟨glyph, others, shape, -, plain⟩ := exists_written_cons piece rest
      rw [shape, Token.endsNumeral_cons, ← Bool.not_eq_true, plain]
      simp

/-- A numeral ends before a gap and more pieces when there is a blank or no numeral follows. -/
theorem isChain_cons_iff :
    (piece :: rest).IsChain Apart ↔
      (piece.lexeme.kind = .number →
        Token.EndsNumeral (piece.gap.glyphs ++ written rest)) ∧ rest.IsChain Apart := by
  rw [List.isChain_cons]
  refine and_congr_left fun _ => ?_
  cases gap : piece.gap.glyphs with
  | nil =>
      rw [List.nil_append, endsNumeral_written]
      exact ⟨fun apart kind next member number => apart next member kind number gap,
        fun ends next member kind number => absurd number (ends kind next member)⟩
  | cons glyph others =>
      have blank : glyph.isIn Text.isBlank = true := piece.gap.blank glyph (by simp [gap])
      refine iff_of_true (fun next _ _ _ => by simp [gap]) fun _ => ?_
      exact Token.endsNumeral_cons.mpr (Token.not_isNumeralGlyph_of_blank blank)

theorem spells_placed (apart : pieces.IsChain Apart) (position : Int) :
    Token.Spells position (placed position pieces) (written pieces) := by
  induction pieces generalizing position with
  | nil => exact .done
  | cons piece rest ih =>
      obtain ⟨ends, apart⟩ := isChain_cons_iff.mp apart
      refine .in_front (piece.lexeme.token_isLexeme position) rfl rfl ends ?_
      exact (Token.spells_blank_append_iff piece.gap.blank).mpr (ih apart _)

theorem placed_moves {others : List Piece}
    (same : pieces.map Piece.lexeme = others.map Piece.lexeme) (position other : Int) :
    List.Forall₂ (Token.MovesTo fun _ _ => True) (placed position pieces)
      (placed other others) := by
  induction pieces generalizing others position other with
  | nil =>
      obtain rfl : others = [] := List.map_eq_nil_iff.mp same.symm
      exact .nil
  | cons piece rest ih =>
      cases others with
      | nil => cases same
      | cons otherPiece others =>
          obtain ⟨sameLexeme, sameRest⟩ := List.cons.inj same
          refine .cons ⟨?_, ?_, trivial⟩ (ih sameRest _ _)
          · exact congrArg Lexeme.kind sameLexeme
          · exact congrArg Lexeme.text sameLexeme

end Piece

/-- A source by its lexemes and the blanks before, between and behind them. -/
structure Spacing where
  before : Gap
  pieces : List Piece
  nonempty : pieces ≠ []
  apart : pieces.IsChain Piece.Apart

namespace Spacing

def source (spacing : Spacing) : Text :=
  ⟨spacing.before.glyphs ++ Piece.written spacing.pieces⟩

def lexemes (spacing : Spacing) : List Lexeme :=
  spacing.pieces.map Piece.lexeme

/-- The lexemes at their places in the trimmed source, and the end of input behind it. -/
def tokens (spacing : Spacing) : List Token :=
  Piece.placed 0 spacing.pieces ++ [Token.endOf spacing.source]

theorem leading_source (spacing : Spacing) : spacing.source.leading = spacing.before.glyphs := by
  obtain ⟨piece, rest, shape⟩ := List.exists_cons_of_ne_nil spacing.nonempty
  obtain ⟨glyph, others, written, notBlank, -⟩ := Piece.exists_written_cons piece rest
  change (spacing.before.glyphs ++ Piece.written spacing.pieces).takeWhile _ = _
  rw [List.takeWhile_append_of_pos spacing.before.blank, shape, written,
    List.takeWhile_cons_of_neg (by simp [notBlank]), List.append_nil]

/-- Lexing a source that is written from lexemes finds them again. -/
theorem tokenize_source (spacing : Spacing) :
    Token.tokenize spacing.source = .ok spacing.tokens := by
  refine Token.Spells.tokenize_eq ?_ ?_
  · refine (Token.spells_blank_append_iff spacing.before.blank).mpr ?_
    rw [leading_source, Int.add_left_neg]
    exact Piece.spells_placed spacing.apart 0
  · obtain ⟨piece, rest, shape⟩ := List.exists_cons_of_ne_nil spacing.nonempty
    simp [shape, Piece.placed]

theorem exists_of_spells {position : Int} {tokens : List Token} {glyphs : List Glyph}
    (spells : Token.Spells position tokens glyphs) :
    ∃ (before : Gap) (pieces : List Piece), pieces.IsChain Piece.Apart ∧
      pieces.length = tokens.length ∧ glyphs = before.glyphs ++ Piece.written pieces := by
  induction spells with
  | done => exact ⟨⟨[], by simp⟩, [], .nil, rfl, rfl⟩
  | @blank position tokens glyph rest isBlank _ ih =>
      obtain ⟨before, pieces, apart, sameLength, rfl⟩ := ih
      exact ⟨⟨glyph :: before.glyphs, by simpa [isBlank] using before.blank⟩, pieces, apart,
        sameLength, rfl⟩
  | @lexeme token tokens rest isLexeme ends _ ih =>
      -- The blanks in front of the other lexemes are the ones behind this lexeme.
      obtain ⟨gap, pieces, apart, sameLength, rfl⟩ := ih
      refine ⟨⟨[], by simp⟩, ⟨.ofToken token isLexeme, gap⟩ :: pieces,
        Piece.isChain_cons_iff.mpr ⟨ends, apart⟩, by simp [sameLength], rfl⟩

theorem exists_of_tokenize {source : Text} {tokens : List Token}
    (lexed : Token.tokenize source = .ok tokens) :
    ∃ spacing : Spacing, spacing.source = source ∧ spacing.tokens = tokens := by
  obtain ⟨lexemes, nonempty, -, spells⟩ := Token.exists_spells_of_tokenize lexed 0
  obtain ⟨before, pieces, apart, sameLength, shape⟩ := exists_of_spells spells
  have some : pieces ≠ [] := by
    rintro rfl
    exact nonempty (List.length_eq_zero_iff.mp (by simpa using sameLength.symm))
  have sameSource : (⟨before, pieces, some, apart⟩ : Spacing).source = source :=
    Text.ext shape.symm
  refine ⟨_, sameSource, ?_⟩
  have lexedToo := tokenize_source ⟨before, pieces, some, apart⟩
  rw [sameSource] at lexedToo
  exact Except.ok.inj (lexedToo.symm.trans lexed)

theorem wellFormed (spacing : Spacing) : WellFormed spacing.tokens :=
  Token.tokenize_wellFormed spacing.tokenize_source

theorem tokens_moves {spacing other : Spacing} (same : spacing.lexemes = other.lexemes) :
    List.Forall₂ (Token.MovesTo fun _ _ => True) spacing.tokens other.tokens :=
  List.rel_append (Piece.placed_moves same 0 0) (.cons ⟨rfl, rfl, trivial⟩ .nil)

/-- Writing lexemes with any blanks that keep numerals apart and lexing the source gives the lexemes
back, at their places in the trimmed source; every source that is lexed is written so. However the
same lexemes are spaced, either parser makes the same of them, or refuses them for the same cause at
the same lexeme. -/
theorem spacing_is_free :
    (∀ spacing : Spacing, Token.tokenize spacing.source = .ok spacing.tokens) ∧
      (∀ source tokens, Token.tokenize source = .ok tokens →
        ∃ spacing : Spacing, spacing.source = source ∧ spacing.tokens = tokens) ∧
      ∀ spacing other : Spacing, spacing.lexemes = other.lexemes →
        ∀ (strategy : Strategy) (cap? : Option Int),
          (∃ parsed, strategy.parse spacing.tokens cap? = .ok parsed ∧
            strategy.parse other.tokens cap? = .ok parsed) ∨
          ∃ cause position otherPosition,
            SameIndex spacing.tokens other.tokens position otherPosition ∧
            strategy.parse spacing.tokens cap? = .error (.syntactic cause position) ∧
            strategy.parse other.tokens cap? = .error (.syntactic cause otherPosition) := by
  refine ⟨tokenize_source, fun source tokens => exists_of_tokenize, ?_⟩
  intro spacing other same strategy cap?
  exact strategy.parse_same_lexemes spacing.wellFormed cap? (tokens_moves same)

def oneLexeme : Lexeme :=
  .ofToken ⟨.number, "1", 0⟩
    (.numeral ⟨rfl, .whole (by simp : ['1'] ≠ []) (by simp [Text.isAsciiDigit])⟩)

def plusLexeme : Lexeme :=
  .ofToken ⟨.operator, "+", 0⟩ (.additive ⟨rfl, .inl rfl⟩)

/-- The source `1+1 1`, which no expression is. -/
def tight : Spacing where
  before := ⟨[], by decide⟩
  pieces := [⟨oneLexeme, [], by decide⟩, ⟨plusLexeme, [], by decide⟩,
    ⟨oneLexeme, [.whole ' '], by decide⟩, ⟨oneLexeme, [], by decide⟩]
  nonempty := by decide
  apart := by simp [Piece.Apart, oneLexeme, plusLexeme, Lexeme.ofToken]

/-- The same lexemes with blanks wherever there may be blanks. -/
def wide : Spacing where
  before := ⟨[.whole ' '], by decide⟩
  pieces := [⟨oneLexeme, [.whole '\t'], by decide⟩, ⟨plusLexeme, [.whole ' '], by decide⟩,
    ⟨oneLexeme, [.whole ' ', .whole ' '], by decide⟩, ⟨oneLexeme, [.whole ' '], by decide⟩]
  nonempty := by decide
  apart := by simp [Piece.Apart, oneLexeme, plusLexeme, Lexeme.ofToken]

theorem tight_and_wide_are_refused_alike :
    tight.lexemes = wide.lexemes ∧
      Token.tokenize " 1\t+ 1  1 " = .ok wide.tokens ∧
      ∃ cause position otherPosition, SameIndex tight.tokens wide.tokens position otherPosition ∧
        Descent.parse tight.tokens = .error (.syntactic cause position) ∧
        Descent.parse wide.tokens = .error (.syntactic cause otherPosition) := by
  refine ⟨rfl, spacing_is_free.1 wide, ?_⟩
  rcases spacing_is_free.2.2 tight wide rfl .topDown none with ⟨parsed, accepted, -⟩ | refused
  · have refuses : (Descent.parse tight.tokens).isOk = false := by decide +kernel
    change Descent.parse tight.tokens = .ok parsed at accepted
    rw [accepted] at refuses
    cases refuses
  · exact refused

end Spacing

end Reckon
