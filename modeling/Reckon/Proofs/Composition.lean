import Reckon.Proofs.Positions
import Reckon.Proofs.Spellings

/-!
# Composition

Sources can be put together. A source that is parsed is the written form of a derivation, wherever
it stands in a longer source and whatever blanks it has, so parentheses around it make a factor, and
factors can be given a sign or joined by an operator. Both parsers read the composed source as the
composed tree, if it is not nested too deeply.
-/

set_option autoImplicit false

namespace Reckon

open Grammar (checkNesting maxNesting)

/-- Glyphs in which something of a nonterminal is written that means a tree. -/
def Phrase (nonterminal : Nonterminal) (tree : Tree Text) (glyphs : List Glyph) : Prop :=
  ∀ position : Int, ∃ derivation : Derivation nonterminal,
    Token.Spells position derivation.tokens glyphs ∧ derivation.outcome = .ok tree

namespace Phrase

variable {tree leftTree rightTree : Tree Text} {glyphs left right : List Glyph}

theorem group (inner : Phrase .expression tree glyphs) :
    Phrase .factor tree (Glyph.whole '(' :: (glyphs ++ [Glyph.whole ')'])) := by
  intro position
  obtain ⟨derivation, spells, outcome⟩ := inner (position + 1)
  refine ⟨.group ⟨.leftParenthesis, "(", position⟩
    ⟨.rightParenthesis, ")", position + 1 + glyphs.length⟩ ⟨rfl, rfl⟩ ⟨rfl, rfl⟩ derivation,
    ?_, by rwa [Derivation.outcome]⟩
  refine .in_front (.opening ⟨rfl, rfl⟩) rfl rfl (by simp) ?_
  refine spells.append (Token.endsNumeral_cons.mpr (by decide)) ?_
  exact .in_front (.closing ⟨rfl, rfl⟩) rfl rfl (by simp) .done

theorem signed {sign : Text} (isSign : sign = "+" ∨ sign = "-")
    (operand : Phrase .factor tree glyphs) :
    Phrase .factor (.unary sign tree) (sign.toList ++ glyphs) := by
  intro position
  obtain ⟨derivation, spells, outcome⟩ := operand (position + sign.toList.length)
  refine ⟨.signed ⟨.operator, sign, position⟩ ⟨rfl, isSign⟩ derivation, ?_, ?_⟩
  · exact .in_front (.additive ⟨rfl, isSign⟩) rfl rfl (by simp) spells
  · rw [Derivation.outcome, outcome]
    rfl

theorem only (level : Level) (operand : Phrase level.operand tree glyphs) :
    Phrase level.whole tree glyphs := by
  intro position
  obtain ⟨derivation, spells, outcome⟩ := operand position
  exact ⟨level.only derivation, by rwa [level.tokens_only], by rwa [level.outcome_only]⟩

theorem fold (level : Level) {operator : Text}
    (isOperator : ∀ position, level.IsOperator ⟨.operator, operator, position⟩)
    (leftPhrase : Phrase level.whole leftTree left)
    (rightPhrase : Phrase level.operand rightTree right) :
    Phrase level.whole (.binary operator leftTree rightTree)
      (left ++ (operator.toList ++ right)) := by
  intro position
  obtain ⟨leftDerivation, leftSpells, leftOutcome⟩ := leftPhrase position
  obtain ⟨rightDerivation, rightSpells, rightOutcome⟩ :=
    rightPhrase (position + left.length + operator.toList.length)
  have isHere := isOperator (position + left.length)
  have isLexeme := level.isLexeme isHere
  refine ⟨level.fold leftDerivation _ isHere rightDerivation, ?_, ?_⟩
  · rw [level.tokens_fold]
    refine leftSpells.append (isLexeme.endsNumeral (by simp)) ?_
    exact .in_front isLexeme rfl rfl (by simp) rightSpells
  · rw [level.outcome_fold, leftOutcome, rightOutcome]
    rfl

theorem ofFactor (factor : Phrase .factor tree glyphs) : Phrase .expression tree glyphs :=
  only .sums (only .products factor)

theorem binary {operator : Text} (known : operator ∈ (["+", "-", "*", "/"] : List Text))
    (leftPhrase : Phrase .factor leftTree left) (rightPhrase : Phrase .factor rightTree right) :
    Phrase .expression (.binary operator leftTree rightTree)
      (left ++ (operator.toList ++ right)) := by
  have level : (operator = "+" ∨ operator = "-") ∨ (operator = "*" ∨ operator = "/") := by
    simpa [or_assoc] using known
  rcases level with additive | multiplicative
  · exact fold .sums (fun _ => ⟨rfl, additive⟩) leftPhrase.ofFactor (only .products rightPhrase)
  · exact only .sums
      (fold .products (fun _ => ⟨rfl, multiplicative⟩) (only .products leftPhrase) rightPhrase)

end Phrase

/-- A source is lexed and then parsed to a tree by one of the strategies. -/
def Parses (source : Text) (tree : Tree Text) : Prop :=
  ∃ (tokens : List Token) (strategy : Strategy), Token.tokenize source = .ok tokens ∧
    (strategy.parse tokens none).map Parsed.tree = .ok tree

/-- A source is lexed and, unless it is nested too deeply, then parsed to a tree by both
strategies. -/
def ParsesByBoth (source : Text) (tree : Tree Text) : Prop :=
  ∃ tokens, Token.tokenize source = .ok tokens ∧
    (checkNesting tokens maxNesting = .ok () →
      ∀ strategy : Strategy, (strategy.parse tokens none).map Parsed.tree = .ok tree)

variable {source : Text} {tree : Tree Text}

/-- What is parsed is a phrase, also when it stands elsewhere. -/
theorem Parses.phrase (parses : Parses source tree) : Phrase .expression tree source.toList := by
  intro position
  obtain ⟨tokens, strategy, lexed, accepted⟩ := parses
  have wellFormed := Token.tokenize_wellFormed lexed
  obtain ⟨parsed, read, rfl⟩ := except_map_ok accepted
  obtain ⟨lexemes, -, rfl, spells⟩ := Token.exists_spells_of_tokenize lexed position
  -- The parser makes the same of the lexemes at their places in the other source.
  have moves : List.Forall₂ (Token.MovesTo fun _ _ => True) (lexemes ++ [Token.endOf source])
      (lexemes.map (Token.moved (position + source.leading.length)) ++ [Token.endOf source]) := by
    refine List.rel_append ?_ (.cons ⟨rfl, rfl, trivial⟩ .nil)
    rw [List.forall₂_map_right_iff, List.forall₂_same]
    exact fun _ _ => ⟨rfl, rfl, trivial⟩
  have answers := strategy.parse_moves wellFormed none moves
  rw [read] at answers
  obtain ⟨_, movedAccepted, rfl⟩ := answers.exists_ok
  obtain ⟨derivation, ⟨last, -, shape⟩, outcome⟩ :=
    strategy.parse_reads (wellFormed.of_moves moves) movedAccepted
  obtain ⟨sameLexemes, -⟩ := List.append_inj' shape rfl
  exact ⟨derivation, sameLexemes ▸ spells, outcome⟩

/-- A phrase for a source is what both parsers read. -/
theorem Phrase.parsesByBoth (phrase : Phrase .expression tree source.toList) :
    ParsesByBoth source tree := by
  obtain ⟨derivation, spells, outcome⟩ := phrase (-source.leading.length)
  refine ⟨_, spells.tokenize_eq derivation.tokens_ne_nil, ?_⟩
  intro allowed strategy
  have spans : derivation.Spans (derivation.tokens ++ [Token.endOf source]) := ⟨_, rfl, rfl⟩
  rw [(strategy.parse_followsGrammar spans.wellFormed).follows spans, allowed]
  exact outcome

def parenthesized (source : Text) : Text :=
  "(" ++ source ++ ")"

theorem Parses.parenthesized (parses : Parses source tree) :
    Phrase .factor tree (parenthesized source).toList :=
  parses.phrase.group

/-- Sources that are parsed, by either strategy and whatever blanks are in them, compose: both
strategies read one in parentheses as its own tree, with a sign in front as the signed tree, and two
with an operator between them as the operation on their trees. -/
theorem composed_sources_parse {left right : Text} {leftTree rightTree : Tree Text}
    (leftParses : Parses left leftTree) (rightParses : Parses right rightTree) :
    ParsesByBoth (parenthesized left) leftTree ∧
      (∀ sign ∈ (["+", "-"] : List Text),
        ParsesByBoth (sign ++ parenthesized left) (.unary sign leftTree)) ∧
      ∀ operator ∈ (["+", "-", "*", "/"] : List Text),
        ParsesByBoth (parenthesized left ++ operator ++ parenthesized right)
          (.binary operator leftTree rightTree) := by
  refine ⟨leftParses.parenthesized.ofFactor.parsesByBoth, ?_, ?_⟩
  · intro sign known
    have isSign : sign = "+" ∨ sign = "-" := by simpa using known
    exact (leftParses.parenthesized.signed isSign).ofFactor.parsesByBoth
  · intro operator known
    refine Phrase.parsesByBoth ?_
    have binary := Phrase.binary known leftParses.parenthesized rightParses.parenthesized
    rwa [← List.append_assoc] at binary

theorem spacedSum_times_signed :
    Parses " 1+2" (.binary "+" (.number (.ofInt 1)) (.number (.ofInt 2))) ∧
      Parses "-3\t" (.unary "-" (.number (.ofInt 3))) ∧
      ∃ tokens, Token.tokenize "( 1+2)*(-3\t)" = .ok tokens ∧
        ∀ strategy : Strategy, (strategy.parse tokens none).map Parsed.tree =
          .ok (.binary "*" (.binary "+" (.number (.ofInt 1)) (.number (.ofInt 2)))
            (.unary "-" (.number (.ofInt 3)))) := by
  have leftParses : Parses " 1+2" (.binary "+" (.number (.ofInt 1)) (.number (.ofInt 2))) :=
    ⟨[⟨.number, "1", 0⟩, ⟨.operator, "+", 1⟩, ⟨.number, "2", 2⟩, ⟨.endOfInput, "", 3⟩],
      .topDown, by decide +kernel, by decide +kernel⟩
  have rightParses : Parses "-3\t" (.unary "-" (.number (.ofInt 3))) :=
    ⟨[⟨.operator, "-", 0⟩, ⟨.number, "3", 1⟩, ⟨.endOfInput, "", 2⟩],
      .bottomUp, by decide +kernel, by decide +kernel⟩
  obtain ⟨tokens, lexed, parses⟩ :=
    (composed_sources_parse leftParses rightParses).2.2 "*" (by simp)
  refine ⟨leftParses, rightParses, tokens, lexed, parses ?_⟩
  have nested : (Token.tokenize "( 1+2)*(-3\t)" >>= (checkNesting · maxNesting)) = .ok () := by
    decide +kernel
  change (Token.tokenize (parenthesized " 1+2" ++ "*" ++ parenthesized "-3\t") >>= _) = _ at nested
  rw [lexed] at nested
  exact nested

end Reckon
