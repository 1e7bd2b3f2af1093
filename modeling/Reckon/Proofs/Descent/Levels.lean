import Reckon.Proofs.Descent.Steps
import Reckon.Proofs.Prefixes

/-!
# Levels of the descent

Terms and expressions are parsed alike: an operand, and then operators of the level with an operand
behind each. A `Level` holds what differs between the two, with the laws that the common proofs
need. `Ready` says when a function of the descent may be called: at an operand of a stream, with
enough calls left for the nesting that the rest of the stream is allowed to add.
-/

set_option autoImplicit false

namespace Reckon

/-- The steps that the descent notes for the tokens of a derivation. -/
def Derivation.notes {nonterminal : Nonterminal} : Derivation nonterminal → Nat
  | .numeral _ _ => 2
  | .group _ _ _ _ inner => 2 + inner.notes + 1
  | .signed _ _ operand => 1 + operand.notes + 1
  | .single factor => 1 + factor.notes
  | .product left _ _ right => left.notes + right.notes + 1
  | .alone term => 1 + term.notes
  | .sum left _ _ right => left.notes + right.notes + 1

namespace Descent

open Grammar (Nesting)

def parser : Nonterminal → Nat → Run (Tree Text)
  | .expression => expression
  | .term => term
  | .factor => factor

/-- How many calls it takes to get to a factor. -/
def height : Nonterminal → Nat
  | .expression => 3
  | .term => 2
  | .factor => 1

theorem height_injective {left right : Nonterminal} (same : height left = height right) :
    left = right := by
  cases left <;> cases right <;> first | rfl | cases same

/-- A function for a nonterminal may be called on tokens with a nesting: an operand comes next, and
what the tokens add to the nesting is allowed. -/
structure Admitted (nonterminal : Nonterminal) (limit : Nat) (nesting : Nesting)
    (tokens : List Token) : Prop where
  terminated : Terminated tokens
  atOperand : nesting.AtOperand
  settled : nonterminal ≠ .factor → nesting.signs = 0
  allowed : nesting.check limit tokens = .ok ()

/-- A function that may be called has as many calls left as it can take. Each sign or parenthesis
around a factor takes at most three calls. -/
structure Ready (nonterminal : Nonterminal) (limit calls : Nat) (nesting : Nesting)
    (tokens : List Token) : Prop extends Admitted nonterminal limit nesting tokens where
  enough : 3 * (limit - nesting.depth) + height nonterminal ≤ calls

/-- A token at which the function for a nonterminal stops: it does not go on as an operator. -/
def Stops : Nonterminal → Token → Prop
  | .expression, token => isOperatorOf "+-" token = false ∧ isOperatorOf "*/" token = false
  | .term, token => isOperatorOf "*/" token = false
  | .factor, _ => True

/-- A level of the grammar as the descent parses it. -/
structure Level extends Reckon.Level where
  operators : Text
  opening : Text
  whole_ne : whole ≠ .factor
  height_whole : height whole = height operand + 1
  notes_only : ∀ derivation, (only derivation).notes = 1 + derivation.notes
  notes_fold : ∀ left operator isOperator right,
    (fold left operator isOperator right).notes = left.notes + right.notes + 1
  kind_eq : ∀ {token : Token}, IsOperator token → token.kind = .operator
  isOperatorOf_eq : ∀ {token : Token}, IsOperator token → isOperatorOf operators token = true
  isOperator : ∀ {token : Token}, token.IsLexeme ∨ token.kind = .endOfInput →
    isOperatorOf operators token = true → IsOperator token
  next_operator : ∀ {nesting : Nesting} {token : Token}, IsOperator token → ¬ nesting.AtOperand →
    nesting.next token = { nesting with previous := some token.text }
  fits_operator : ∀ {nesting : Nesting} {token : Token}, IsOperator token → ¬ nesting.AtOperand →
    nesting.Fits token
  atOperand : ∀ {token : Token}, IsOperator token → ∀ {depth signs : Nat} {outer : List Nat},
    Nesting.AtOperand ⟨depth, signs, outer, some token.text⟩
  stops_whole_iff : ∀ {token : Token},
    Stops whole token ↔ isOperatorOf operators token = false ∧ Stops operand token
  stops_operand : ∀ {token : Token}, IsOperator token → Stops operand token
  parser_whole : ∀ calls, parser whole (calls + 1) = do
    step .process opening none
    let first ← parser operand calls
    let turns := (← get).unread.tokens.length
    chain operators rule (parser operand calls) turns first

namespace Level

def products : Level where
  toLevel := .products
  operators := "*/"
  opening := "Processing term"
  whole_ne := by decide
  height_whole := rfl
  notes_only _ := rfl
  notes_fold _ _ _ _ := rfl
  kind_eq operator := operator.kind
  isOperatorOf_eq := isOperatorOf_multiplicative
  isOperator := isMultiplicative_of_isOperatorOf
  next_operator operator _ := Nesting.next_multiplicative operator
  fits_operator operator behindOperand := .multiplicative behindOperand operator
  atOperand operator := Nesting.atOperand_of_multiplicative operator
  stops_whole_iff := by simp [Stops, Reckon.Level.products]
  stops_operand _ := trivial
  parser_whole _ := rfl

def sums : Level where
  toLevel := .sums
  operators := "+-"
  opening := "Processing expression"
  whole_ne := by decide
  height_whole := rfl
  notes_only _ := rfl
  notes_fold _ _ _ _ := rfl
  kind_eq operator := operator.kind
  isOperatorOf_eq := isOperatorOf_additive
  isOperator := isAdditive_of_isOperatorOf
  next_operator operator behindOperand := Nesting.next_additive behindOperand operator
  fits_operator operator behindOperand := .additive behindOperand operator
  atOperand operator := Nesting.atOperand_of_additive operator
  stops_whole_iff := Iff.rfl
  stops_operand := not_isOperatorOf_additive
  parser_whole _ := rfl

end Level

namespace Admitted

variable {limit : Nat} {nesting : Nesting} {token : Token} {rest : List Token}

theorem operand (level : Level) {tokens : List Token}
    (admitted : Admitted level.whole limit nesting tokens) :
    Admitted level.operand limit nesting tokens where
  terminated := admitted.terminated
  atOperand := admitted.atOperand
  settled _ := admitted.settled level.whole_ne
  allowed := admitted.allowed

theorem behind_sign (sign : token.IsAdditive)
    (admitted : Admitted .factor limit nesting (token :: rest)) :
    Admitted .factor limit (nesting.next token) rest := by
  obtain ⟨_, behind⟩ := Nesting.check_cons_eq_ok_iff.mp admitted.allowed
  rw [Nesting.next_sign admitted.atOperand sign] at behind ⊢
  exact ⟨admitted.terminated.tail (.additive sign), Nesting.atOperand_of_additive sign,
    fun notFactor => absurd rfl notFactor, behind⟩

theorem behind_opening (opening : token.IsOpening)
    (admitted : Admitted .factor limit nesting (token :: rest)) :
    Admitted .expression limit (nesting.next token) rest := by
  obtain ⟨_, behind⟩ := Nesting.check_cons_eq_ok_iff.mp admitted.allowed
  rw [Nesting.next_opening opening] at behind ⊢
  exact ⟨admitted.terminated.tail (.opening opening), rfl, fun _ => rfl, behind⟩

/-- Behind an operator of a level the nesting is what it was before the first operand. -/
theorem next_operator (level : Level) {left : Derivation level.whole}
    (operator : level.IsOperator token)
    (admitted : Admitted level.whole limit nesting (left.tokens ++ token :: rest)) :
    (nesting.after left.tokens).next token =
      ⟨nesting.depth, 0, nesting.outer, some token.text⟩ := by
  obtain ⟨depth, signs, outer, behindOperand⟩ :=
    Nesting.after_derivation left _ admitted.atOperand
  rw [level.next_operator operator behindOperand, depth, signs, outer,
    admitted.settled level.whole_ne, Nat.sub_zero]

theorem behind_operator (level : Level) {left : Derivation level.whole}
    (operator : level.IsOperator token)
    (admitted : Admitted level.whole limit nesting (left.tokens ++ token :: rest)) :
    Admitted level.operand limit ((nesting.after left.tokens).next token) rest := by
  obtain ⟨_, allowed⟩ := Nesting.check_append_eq_ok_iff.mp admitted.allowed
  obtain ⟨_, behind⟩ := Nesting.check_cons_eq_ok_iff.mp allowed
  have terminated := admitted.terminated.behind fun _ member => Derivation.isLexeme_of_mem member
  rw [admitted.next_operator level operator] at behind ⊢
  exact ⟨terminated.tail (level.isLexeme operator), level.atOperand operator, fun _ => rfl, behind⟩

end Admitted

namespace Ready

variable {limit calls : Nat} {nesting : Nesting} {token : Token} {rest : List Token}

theorem operand (level : Level) {tokens : List Token}
    (ready : Ready level.whole limit (calls + 1) nesting tokens) :
    Ready level.operand limit calls nesting tokens where
  toAdmitted := ready.toAdmitted.operand level
  enough := by
    have enough := ready.enough
    have height := level.height_whole
    omega

theorem behind_sign (sign : token.IsAdditive)
    (ready : Ready .factor limit (calls + 1) nesting (token :: rest)) :
    Ready .factor limit calls (nesting.next token) rest := by
  obtain ⟨allowed, _⟩ := Nesting.check_cons_eq_ok_iff.mp ready.allowed
  have enough := ready.enough
  refine ⟨ready.toAdmitted.behind_sign sign, ?_⟩
  rw [Nesting.next_sign ready.atOperand sign] at allowed ⊢
  simp only [height] at allowed enough ⊢
  omega

theorem behind_opening (opening : token.IsOpening)
    (ready : Ready .factor limit (calls + 1) nesting (token :: rest)) :
    Ready .expression limit calls (nesting.next token) rest := by
  obtain ⟨allowed, _⟩ := Nesting.check_cons_eq_ok_iff.mp ready.allowed
  have enough := ready.enough
  refine ⟨ready.toAdmitted.behind_opening opening, ?_⟩
  rw [Nesting.next_opening opening] at allowed ⊢
  simp only [height] at allowed enough ⊢
  omega

/-- Behind an operator of its level an operand may be parsed with the calls that the first one had:
the nesting is what it was. -/
theorem behind_operator (level : Level) {left : Derivation level.whole}
    (operator : level.IsOperator token)
    (ready : Ready level.whole limit (calls + 1) nesting (left.tokens ++ token :: rest)) :
    Ready level.operand limit calls ((nesting.after left.tokens).next token) rest := by
  have enough := ready.enough
  have height := level.height_whole
  refine ⟨ready.toAdmitted.behind_operator level operator, ?_⟩
  rw [ready.next_operator level operator]
  simp only
  omega

end Ready

end Descent

end Reckon
