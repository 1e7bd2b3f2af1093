import Reckon.Proofs.Spellings

/-!
# Tokens as slices of their source

The tokens of a source and the trimmed source say the same apart from blanks: each token is a slice
of the text at its own place, numerals are as long as they can be, the slices follow each other
without overlapping, and what lies between them is blank.
-/

set_option autoImplicit false

namespace Reckon.Token

/-- A token stands in a text at a distance from its start: the text has the token's text there, and
if the token is a numeral, it goes on neither in front of it nor behind it. -/
def StandsAt (token : Token) (distance : Nat) (glyphs : List Glyph) : Prop :=
  ∃ front behind, glyphs = front ++ (token.text.toList ++ behind) ∧ front.length = distance ∧
    (token.kind = .number →
      (∀ glyph ∈ front.getLast?, isNumeralGlyph glyph = false) ∧
        ∀ glyph ∈ behind.head?, isNumeralGlyph glyph = false)

def Covers (token : Token) (index : Int) : Prop :=
  token.position ≤ index ∧ index < token.position + token.text.length

/-- A token ends where another one starts, or before. -/
def IsBefore (left right : Token) : Prop :=
  left.position < right.position ∧ left.position + left.text.length ≤ right.position

namespace Spells

variable {position : Int} {tokens : List Token} {glyphs : List Glyph} {token : Token}

theorem isLexeme (spells : Spells position tokens glyphs) (member : token ∈ tokens) :
    token.IsLexeme := by
  induction spells with
  | done => cases member
  | blank _ _ ih => exact ih member
  | lexeme isLexeme _ _ ih =>
      rcases List.mem_cons.mp member with rfl | inRest
      · exact isLexeme
      · exact ih inRest

end Spells

/-- A token that stands in a text stands in a longer one behind a front, when no numeral of the text
could begin in the front. -/
theorem StandsAt.behind {token : Token} {distance : Nat} {glyphs : List Glyph}
    (stands : token.StandsAt distance glyphs) (front : List Glyph)
    (apart : ∀ glyph ∈ front.getLast?, isNumeralGlyph glyph = false ∨ EndsNumeral glyphs)
    (isLexeme : token.IsLexeme) : token.StandsAt (front.length + distance) (front ++ glyphs) := by
  obtain ⟨between, behind, rfl, rfl, maximal⟩ := stands
  refine ⟨front ++ between, behind, by simp, by simp, fun kind => ⟨?_, (maximal kind).2⟩⟩
  intro glyph isLast
  cases between with
  | cons first others =>
      refine (maximal kind).1 glyph ?_
      rwa [List.getLast?_append_of_ne_nil _ (by simp)] at isLast
  | nil =>
      -- The token is the first thing behind the front.
      rcases apart glyph (by simpa using isLast) with notPlain | ends
      · exact notPlain
      · obtain ⟨first, others, shape⟩ := List.exists_cons_of_ne_nil isLexeme.toList_ne_nil
        have plain : isNumeralGlyph first = true :=
          (isLexeme.isNumeralGlyph_iff (by simp [shape])).mpr kind
        rw [List.nil_append, shape, List.cons_append, endsNumeral_cons, plain] at ends
        cases ends

namespace Spells

variable {position : Int} {tokens : List Token} {glyphs : List Glyph} {token : Token}

theorem exists_standsAt (spells : Spells position tokens glyphs) (member : token ∈ tokens) :
    ∃ distance : Nat, token.position = position + distance ∧ token.StandsAt distance glyphs := by
  induction spells with
  | done => cases member
  | @blank position tokens glyph rest isBlank behind ih =>
      obtain ⟨distance, place, stands⟩ := ih member
      refine ⟨[glyph].length + distance, ?_, stands.behind [glyph] ?_ (behind.isLexeme member)⟩
      · simp only [List.length_singleton]
        omega
      · rintro _ ⟨⟩
        exact .inl (not_isNumeralGlyph_of_blank isBlank)
  | @lexeme first tokens rest firstLexeme ends behind ih =>
      rcases List.mem_cons.mp member with rfl | inRest
      · exact ⟨0, by simp, [], rest, rfl, rfl, fun kind => ⟨by simp, ends kind⟩⟩
      · obtain ⟨distance, place, stands⟩ := ih inRest
        refine ⟨first.text.toList.length + distance, ?_,
          stands.behind first.text.toList ?_ (behind.isLexeme inRest)⟩
        · simp only [Text.length] at place
          omega
        · intro glyph isLast
          have inFirst := List.mem_of_getLast? isLast
          cases plain : isNumeralGlyph glyph with
          | false => exact .inl rfl
          | true => exact .inr (ends ((firstLexeme.isNumeralGlyph_iff inFirst).mp plain))

theorem position_le (spells : Spells position tokens glyphs) (member : token ∈ tokens) :
    position ≤ token.position := by
  obtain ⟨distance, place, -⟩ := spells.exists_standsAt member
  omega

theorem end_le (spells : Spells position tokens glyphs) (member : token ∈ tokens) :
    token.position + token.text.length ≤ position + glyphs.length := by
  obtain ⟨distance, place, front, behind, rfl, rfl, -⟩ := spells.exists_standsAt member
  simp only [List.length_append, Text.length]
  omega

theorem pairwise_isBefore (spells : Spells position tokens glyphs) :
    tokens.Pairwise IsBefore := by
  induction spells with
  | done => exact .nil
  | blank _ _ ih => exact ih
  | @lexeme first tokens rest isLexeme _ behind ih =>
      refine .cons (fun other member => ?_) ih
      have nonempty := List.length_pos_iff.mpr isLexeme.toList_ne_nil
      have least := behind.position_le member
      simp only [IsBefore, Text.length] at least ⊢
      omega

theorem blank_of_not_covers (spells : Spells position tokens glyphs) {index : Nat} {glyph : Glyph}
    (found : glyphs[index]? = some glyph)
    (bare : ∀ token ∈ tokens, ¬ token.Covers (position + index)) :
    glyph.isIn Text.isBlank = true := by
  induction spells generalizing index with
  | done => simp at found
  | @blank position tokens first rest isBlank _ ih =>
      cases index with
      | zero =>
          obtain rfl : first = glyph := by simpa using found
          exact isBlank
      | succ index =>
          refine ih (by simpa using found) fun token member => ?_
          have notHere := bare token member
          rwa [show position + (index + 1 : Nat) = position + 1 + index by omega] at notHere
  | @lexeme first tokens rest _ _ _ ih =>
      have firstBare := bare first (by simp)
      simp only [Covers, Text.length] at firstBare
      have outside : first.text.toList.length ≤ index := by omega
      rw [List.getElem?_append_right outside] at found
      refine ih found fun token member => ?_
      have notHere := bare token (by simp [member])
      rwa [show first.position + (index : Int) = first.position + first.text.length +
        (index - first.text.toList.length : Nat) by simp only [Text.length]; omega] at notHere

end Spells

section Tokenize

variable {source : Text} {tokens : List Token} {token : Token}

theorem exists_standsAt_of_tokenize (lexed : tokenize source = .ok tokens)
    (member : token ∈ tokens) :
    ∃ distance : Nat, token.position = distance ∧
      token.StandsAt distance (Text.trim source).toList := by
  obtain ⟨lexemes, -, spells, rfl⟩ := tokenize_eq_ok_iff.mp lexed
  rcases List.mem_append.mp member with inLexemes | isEnd
  · simpa using spells.exists_standsAt inLexemes
  · obtain rfl := List.mem_singleton.mp isEnd
    exact ⟨(Text.trim source).length, rfl, (Text.trim source).toList, [], by simp [endOf], rfl,
      by simp [endOf]⟩

theorem pairwise_isBefore_of_tokenize (lexed : tokenize source = .ok tokens) :
    tokens.Pairwise IsBefore := by
  obtain ⟨lexemes, -, spells, rfl⟩ := tokenize_eq_ok_iff.mp lexed
  refine List.pairwise_append.mpr ⟨spells.pairwise_isBefore, List.pairwise_singleton .., ?_⟩
  intro token member last isEnd
  obtain rfl := List.mem_singleton.mp isEnd
  have nonempty := List.length_pos_iff.mpr (spells.isLexeme member).toList_ne_nil
  have most := spells.end_le member
  simp only [IsBefore, endOf, Text.length] at most ⊢
  omega

end Tokenize

/-- Lexing is lossless. The tokens of a source are one lexeme or more and one end of input behind
the trimmed source. Each of them is a slice of the trimmed source, at its own position and as long
as it can be; each ends before the next one starts, what none of them covers is blank, and parsers
accept them as a stream. -/
theorem tokenize_lossless {source : Text} {tokens : List Token}
    (lexed : tokenize source = .ok tokens) :
    ∃ lexemes : List Token,
      tokens = lexemes ++ [⟨.endOfInput, "", (Text.trim source).length⟩] ∧ lexemes ≠ [] ∧
      (∀ token ∈ lexemes, token.IsLexeme) ∧
      (∀ token ∈ tokens, ∃ distance : Nat, token.position = distance ∧
        token.StandsAt distance (Text.trim source).toList) ∧
      tokens.Pairwise IsBefore ∧
      (∀ (index : Nat) (glyph : Glyph), (Text.trim source).toList[index]? = some glyph →
        (∀ token ∈ tokens, ¬ token.Covers index) → glyph.isIn Text.isBlank = true) ∧
      checkStream tokens = .ok () := by
  have wellFormed := tokenize_wellFormed lexed
  have stands : ∀ token ∈ tokens, ∃ distance : Nat, token.position = distance ∧
      token.StandsAt distance (Text.trim source).toList :=
    fun _ => exists_standsAt_of_tokenize lexed
  have ordered := pairwise_isBefore_of_tokenize lexed
  obtain ⟨lexemes, nonempty, spells, rfl⟩ := tokenize_eq_ok_iff.mp lexed
  refine ⟨lexemes, rfl, nonempty, fun token => spells.isLexeme, stands, ordered, ?_,
    wellFormed.checkStream⟩
  intro index glyph found bare
  refine spells.blank_of_not_covers found fun token member => ?_
  simpa using bare token (by simp [member])

def spacedSum : Text :=
  " 1.5+ .25\t"

theorem spacedSum_lossless :
    tokenize spacedSum = .ok [⟨.number, "1.5", 0⟩, ⟨.operator, "+", 3⟩, ⟨.number, ".25", 5⟩,
      ⟨.endOfInput, "", 8⟩] ∧
    ∃ distance : Nat, (5 : Int) = distance ∧
      StandsAt ⟨.number, ".25", 5⟩ distance (Text.trim spacedSum).toList := by
  have lexed : tokenize spacedSum = .ok [⟨.number, "1.5", 0⟩, ⟨.operator, "+", 3⟩,
      ⟨.number, ".25", 5⟩, ⟨.endOfInput, "", 8⟩] := by decide +kernel
  obtain ⟨lexemes, -, -, -, stands, -⟩ := tokenize_lossless lexed
  exact ⟨lexed, stands ⟨.number, ".25", 5⟩ (by simp)⟩

end Reckon.Token
