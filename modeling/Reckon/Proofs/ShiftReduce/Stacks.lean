import Reckon.Proofs.Language
import Reckon.Proofs.ShiftReduce.Selection

/-!
# What the stack stands for

Each frame stands for a part of the tokens that were shifted: a terminal for its own token, and a
nonterminal for the tokens of a derivation whose meaning is beside it. From bottom to top the parts
make up what was shifted. A symbol at the top of such a stack therefore tells what is beside it.
-/

set_option autoImplicit false

namespace Reckon.ShiftReduce

/-- The symbols that the machine puts on its stack for a token. -/
inductive Marks (token : Token) (symbol : Text) : Prop where
  | numeral : symbol = "NUMBER" → token.IsNumeral → Marks token symbol
  | opening : symbol = "(" → token.IsOpening → Marks token symbol
  | closing : symbol = ")" → token.IsClosing → Marks token symbol
  | multiplicative : symbol = "*" ∨ symbol = "/" → token.IsMultiplicative → token.text = symbol →
      Marks token symbol
  | additive : symbol = "+" ∨ symbol = "-" → token.IsAdditive → token.text = symbol →
      Marks token symbol
  | sign : symbol = "u+" ∨ symbol = "u-" → token.IsAdditive → "u" ++ token.text = symbol →
      Marks token symbol

/-- The part of the tokens that a frame stands for. -/
inductive Stands : Frame → List Token → Prop where
  | token {token : Token} {symbol : Text} :
      Marks token symbol → Stands ⟨symbol, .token token⟩ [token]
  | node {nonterminal : Nonterminal} {tree : Tree Text} (derivation : Derivation nonterminal) :
      derivation.outcome = .ok tree →
      Stands ⟨nonterminal.symbol, .node tree⟩ derivation.tokens

/-- The frames of a stack stand for the given tokens. -/
inductive Stacked : List Frame → List Token → Prop where
  | nil : Stacked [] []
  | cons {frame : Frame} {stack : List Frame} {part seen : List Token} :
      Stands frame part → Stacked stack seen → Stacked (frame :: stack) (seen ++ part)

section Marks

variable {token : Token} {symbol : Text}

theorem Text.append_left_cancel {front left right : Text} (same : front ++ left = front ++ right) :
    left = right := by
  have lists := congrArg Text.toList same
  rw [Text.toList_append, Text.toList_append] at lists
  exact Text.ext (List.append_cancel_left lists)

theorem marked_signs : ("u" : Text) ++ "+" = "u+" ∧ ("u" : Text) ++ "-" = "u-" := by decide

theorem Marks.isLexeme (marks : Marks token symbol) : token.IsLexeme := by
  cases marks with
  | numeral _ numeral => exact .numeral numeral
  | opening _ opening => exact .opening opening
  | closing _ closing => exact .closing closing
  | multiplicative _ multiplicative _ => exact .multiplicative multiplicative
  | additive _ additive _ => exact .additive additive
  | sign _ sign _ => exact .additive sign

theorem Marks.isNumeral (marks : Marks token "NUMBER") : token.IsNumeral := by
  cases marks <;> simp_all

theorem Marks.isOpening (marks : Marks token "(") : token.IsOpening := by
  cases marks <;> simp_all

theorem Marks.isClosing (marks : Marks token ")") : token.IsClosing := by
  cases marks <;> simp_all

theorem Marks.isMultiplicative (marks : Marks token symbol) (wanted : symbol = "*" ∨ symbol = "/") :
    token.IsMultiplicative ∧ token.text = symbol := by
  rcases wanted with rfl | rfl <;> cases marks <;> simp_all

theorem Marks.isAdditive (marks : Marks token symbol) (wanted : symbol = "+" ∨ symbol = "-") :
    token.IsAdditive ∧ token.text = symbol := by
  rcases wanted with rfl | rfl <;> cases marks <;> simp_all

theorem Marks.isSign (marks : Marks token symbol) (wanted : symbol = "u+" ∨ symbol = "u-") :
    token.IsAdditive ∧ "u" ++ token.text = symbol := by
  rcases wanted with rfl | rfl <;> cases marks <;> simp_all

theorem Marks.ne_nonterminal (marks : Marks token symbol) (nonterminal : Nonterminal) :
    symbol ≠ nonterminal.symbol := by
  rintro rfl
  cases nonterminal <;> cases marks <;> simp_all [Nonterminal.symbol]

/-- A plus or minus is marked as a sign where an operand is wanted. -/
theorem shiftSymbol_additive (additive : token.IsAdditive) (top? : Option Text) :
    Grammar.shiftSymbol token top? =
      if top?.all Grammar.signContext.contains then "u" ++ token.text else token.text := by
  have signSymbol : Grammar.isSignSymbol token.text = true := by
    rcases additive.text with plus | minus <;> simp [Grammar.isSignSymbol, *]
  rw [Grammar.shiftSymbol, additive.symbol, signSymbol, Bool.true_and]
  split
  · rcases additive.text with plus | minus
    · simp [plus, marked_signs.1]
    · simp [minus, marked_signs.2]
  · rfl

theorem shiftSymbol_of_not_sign (other : Grammar.isSignSymbol token.symbol = false)
    (top? : Option Text) : Grammar.shiftSymbol token top? = token.symbol := by
  simp [Grammar.shiftSymbol, other]

/-- Wherever a lexeme is shifted, it gets a symbol of its own. -/
theorem marks_shiftSymbol (lexeme : token.IsLexeme) (top? : Option Text) :
    Marks token (Grammar.shiftSymbol token top?) := by
  cases lexeme with
  | numeral numeral =>
      refine .numeral ?_ numeral
      rw [shiftSymbol_of_not_sign] <;> simp [numeral.symbol, Grammar.isSignSymbol]
  | opening opening =>
      refine .opening ?_ opening
      rw [shiftSymbol_of_not_sign] <;> simp [opening.symbol, Grammar.isSignSymbol]
  | closing closing =>
      refine .closing ?_ closing
      rw [shiftSymbol_of_not_sign] <;> simp [closing.symbol, Grammar.isSignSymbol]
  | multiplicative multiplicative =>
      have unmarked : Grammar.shiftSymbol token top? = token.text := by
        rw [shiftSymbol_of_not_sign, multiplicative.symbol]
        rcases multiplicative.text with times | divide <;>
          simp [multiplicative.symbol, Grammar.isSignSymbol, *]
      rw [unmarked]
      exact .multiplicative multiplicative.text multiplicative rfl
  | additive additive =>
      rw [shiftSymbol_additive additive]
      split
      · refine .sign ?_ additive rfl
        rcases additive.text with plus | minus
        · exact .inl (plus ▸ marked_signs.1)
        · exact .inr (minus ▸ marked_signs.2)
      · exact .additive additive.text additive rfl

end Marks

section Frames

variable {frame : Frame} {stack : List Frame} {part seen : List Token}

theorem Nonterminal.symbol_injective : Function.Injective Nonterminal.symbol := by
  intro left right same
  cases left <;> cases right <;> simp_all [Nonterminal.symbol]

theorem Stands.derivation (stands : Stands frame part) (nonterminal : Nonterminal)
    (isSymbol : frame.symbol = nonterminal.symbol) :
    ∃ derivation : Derivation nonterminal, ∃ tree,
      frame.item = .node tree ∧ part = derivation.tokens ∧ derivation.outcome = .ok tree := by
  cases stands with
  | token marks => exact absurd isSymbol (marks.ne_nonterminal nonterminal)
  | node derivation outcome =>
      obtain rfl := Nonterminal.symbol_injective isSymbol
      exact ⟨derivation, _, rfl, rfl, outcome⟩

theorem Stands.marked (stands : Stands frame part) {symbol : Text}
    (isSymbol : frame.symbol = symbol)
    (terminal : ∀ nonterminal : Nonterminal, symbol ≠ nonterminal.symbol) :
    ∃ token, frame.item = .token token ∧ part = [token] ∧ Marks token symbol := by
  subst isSymbol
  cases stands with
  | token marks => exact ⟨_, rfl, rfl, marks⟩
  | @node nonterminal _ _ _ => exact absurd rfl (terminal nonterminal)

theorem Stacked.of_top (stacked : Stacked stack seen) {symbol : Text} {others : List Text}
    (top : symbol :: others <+: stack.map Frame.symbol) :
    ∃ frame below part before, stack = frame :: below ∧ frame.symbol = symbol ∧
      others <+: below.map Frame.symbol ∧ seen = before ++ part ∧ Stands frame part ∧
      Stacked below before := by
  cases stacked with
  | nil => simp at top
  | @cons frame below part before stands stacked =>
      rw [List.map_cons, List.cons_prefix_cons] at top
      exact ⟨frame, below, part, before, rfl, top.1.symm, top.2, rfl, stands, stacked⟩

theorem Stacked.isLexeme (stacked : Stacked stack seen) {token : Token} (member : token ∈ seen) :
    token.IsLexeme := by
  induction stacked with
  | nil => cases member
  | cons stands _ ih =>
      rcases List.mem_append.mp member with below | inPart
      · exact ih below
      · cases stands with
        | token marks =>
            obtain rfl := List.mem_singleton.mp inPart
            exact marks.isLexeme
        | node derivation _ => exact Derivation.isLexeme_of_mem inPart

end Frames

end Reckon.ShiftReduce
