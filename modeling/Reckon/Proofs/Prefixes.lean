import Reckon.Proofs.Nesting

/-!
# Prefixes of expressions

Which tokens may come next. The pass that counts nesting knows it: whether an operand is wanted, and
whether a parenthesis is open. A list of tokens can be continued to an expression exactly when each
of them fits behind those before it, and it is an expression already when, besides, no operand is
wanted and no parenthesis is open.
-/

set_option autoImplicit false

namespace Reckon

def IsExpression (tokens : List Token) : Prop :=
  ∃ derivation : Derivation .expression, derivation.tokens = tokens

/-- Whether tokens are the front of an expression, which may be all of it. -/
def Continuable (front : List Token) : Prop :=
  ∃ rest, IsExpression (front ++ rest)

theorem Continuable.of_begins {front whole : List Token} (continuable : Continuable whole)
    (begins : front <+: whole) : Continuable front := by
  obtain ⟨more, rfl⟩ := begins
  obtain ⟨rest, expression⟩ := continuable
  rw [List.append_assoc] at expression
  exact ⟨more ++ rest, expression⟩

namespace Grammar.Nesting

/-- A token may come next. -/
inductive Fits (nesting : Nesting) (token : Token) : Prop where
  | numeral : nesting.AtOperand → token.IsNumeral → Fits nesting token
  | sign : nesting.AtOperand → token.IsAdditive → Fits nesting token
  | opening : nesting.AtOperand → token.IsOpening → Fits nesting token
  | additive : ¬ nesting.AtOperand → token.IsAdditive → Fits nesting token
  | multiplicative : ¬ nesting.AtOperand → token.IsMultiplicative → Fits nesting token
  | closing : ¬ nesting.AtOperand → nesting.outer ≠ [] → token.IsClosing → Fits nesting token

inductive Takes : Nesting → List Token → Prop where
  | nil {nesting : Nesting} : Takes nesting []
  | cons {nesting : Nesting} {token : Token} {rest : List Token} :
      nesting.Fits token → Takes (nesting.next token) rest → Takes nesting (token :: rest)

/-- No operand is wanted and no parenthesis is open. -/
structure Closed (nesting : Nesting) : Prop where
  behindOperand : ¬ nesting.AtOperand
  outer_eq : nesting.outer = []

variable {nesting : Nesting} {token : Token} {depth signs : Nat} {outer : List Nat}

theorem not_atOperand_numeral : ¬ AtOperand ⟨depth, signs, outer, some "NUMBER"⟩ :=
  (by decide : ¬ signContext.contains "NUMBER" = true)

theorem not_atOperand_closing : ¬ AtOperand ⟨depth, signs, outer, some ")"⟩ :=
  (by decide : ¬ signContext.contains ")" = true)

theorem takes_append_iff {left right : List Token} :
    nesting.Takes (left ++ right) ↔ nesting.Takes left ∧ (nesting.after left).Takes right := by
  induction left generalizing nesting with
  | nil => exact ⟨fun takes => ⟨.nil, takes⟩, fun both => both.2⟩
  | cons token rest ih =>
      constructor
      · intro takes
        cases takes with
        | cons fits takes =>
            obtain ⟨takesRest, takesRight⟩ := ih.mp takes
            exact ⟨.cons fits takesRest, takesRight⟩
      · rintro ⟨takes, takesRight⟩
        cases takes with
        | cons fits takes => exact .cons fits (ih.mpr ⟨takes, takesRight⟩)

theorem takes_derivation {nonterminal : Nonterminal} (derivation : Derivation nonterminal)
    (nesting : Nesting) (atOperand : nesting.AtOperand) : nesting.Takes derivation.tokens := by
  induction derivation generalizing nesting with
  | numeral token isNumeral => exact .cons (.numeral atOperand isNumeral) .nil
  | group opening closing opens closes inner ih =>
      have atInner : (nesting.next opening).AtOperand := by
        rw [next_opening opens]
        rfl
      have settled := after_derivation inner _ atInner
      have opened : (nesting.next opening).outer ≠ [] := by simp [next_opening opens]
      refine .cons (.opening atOperand opens) (takes_append_iff.mpr ⟨ih _ atInner, ?_⟩)
      exact .cons (.closing settled.behindOperand (settled.outer_eq ▸ opened) closes) .nil
  | signed sign isSign operand ih =>
      refine .cons (.sign atOperand isSign) (ih _ ?_)
      rw [next_sign atOperand isSign]
      exact atOperand_of_additive isSign
  | single _ ih => exact ih nesting atOperand
  | product left operator isOperator right leftIH rightIH =>
      have settled := after_derivation left nesting atOperand
      refine takes_append_iff.mpr ⟨leftIH nesting atOperand, ?_⟩
      refine .cons (.multiplicative settled.behindOperand isOperator) (rightIH _ ?_)
      rw [next_multiplicative isOperator]
      exact atOperand_of_multiplicative isOperator
  | alone _ ih => exact ih nesting atOperand
  | sum left operator isOperator right leftIH rightIH =>
      have settled := after_derivation left nesting atOperand
      refine takes_append_iff.mpr ⟨leftIH nesting atOperand, ?_⟩
      refine .cons (.additive settled.behindOperand isOperator) (rightIH _ ?_)
      rw [next_additive settled.behindOperand isOperator]
      exact atOperand_of_additive isOperator

/-- A token is out of place among those that come behind a nesting: the tokens in front of it fit,
and it does not. The end of input is in place behind a whole expression only. -/
def Misplaced (nesting : Nesting) (tokens : List Token) (token : Token) : Prop :=
  ∃ front rest, tokens = front ++ token :: rest ∧ nesting.Takes front ∧
    ¬ (nesting.after front).Fits token ∧ (token.isEnd = true → ¬ (nesting.after front).Closed)

theorem Misplaced.of_head {rest : List Token} (misfit : ¬ nesting.Fits token)
    (notClosed : token.isEnd = true → ¬ nesting.Closed) : nesting.Misplaced (token :: rest) token :=
  ⟨[], rest, rfl, .nil, misfit, notClosed⟩

theorem Misplaced.behind {front tokens : List Token} (takes : nesting.Takes front)
    (misplaced : (nesting.after front).Misplaced tokens token) :
    nesting.Misplaced (front ++ tokens) token := by
  obtain ⟨more, rest, shape, takesMore, misfit, notClosed⟩ := misplaced
  rw [← after_append] at misfit notClosed
  refine ⟨front ++ more, rest, ?_, takes_append_iff.mpr ⟨takes, takesMore⟩, misfit, notClosed⟩
  rw [shape, List.append_assoc]

theorem Misplaced.mem {tokens : List Token} (misplaced : nesting.Misplaced tokens token) :
    token ∈ tokens := by
  obtain ⟨front, rest, shape, -⟩ := misplaced
  simp [shape]

end Grammar.Nesting

open Grammar (Nesting)

/-- Behind these tokens something of a nonterminal is wanted, inside so many open parentheses. -/
inductive Awaits : Nonterminal → Nat → List Token → Prop where
  | start : Awaits .expression 0 []
  | term {groups : Nat} {front : List Token} :
      Awaits .expression groups front → Awaits .term groups front
  | factor {groups : Nat} {front : List Token} :
      Awaits .term groups front → Awaits .factor groups front
  | sum {groups : Nat} {front : List Token} {operator : Token} (left : Derivation .expression) :
      operator.IsAdditive → Awaits .expression groups front →
      Awaits .term groups (front ++ (left.tokens ++ [operator]))
  | product {groups : Nat} {front : List Token} {operator : Token} (left : Derivation .term) :
      operator.IsMultiplicative → Awaits .term groups front →
      Awaits .factor groups (front ++ (left.tokens ++ [operator]))
  | signed {groups : Nat} {front : List Token} {sign : Token} :
      sign.IsAdditive → Awaits .factor groups front → Awaits .factor groups (front ++ [sign])
  | group {groups : Nat} {front : List Token} {opening : Token} :
      opening.IsOpening → Awaits .factor groups front →
      Awaits .expression (groups + 1) (front ++ [opening])

namespace Awaits

variable {nonterminal : Nonterminal} {groups : Nat} {front : List Token}

/-- Whatever is put where it is wanted, the operators, signs and parentheses in front of it can be
completed. -/
theorem continuable (awaits : Awaits nonterminal groups front) :
    ∀ derivation : Derivation nonterminal, Continuable (front ++ derivation.tokens) := by
  induction awaits with
  | start =>
      intro derivation
      exact ⟨[], derivation, by simp⟩
  | term _ ih =>
      intro derivation
      exact ih (.alone derivation)
  | factor _ ih =>
      intro derivation
      exact ih (.single derivation)
  | sum left isOperator _ ih =>
      intro derivation
      have whole := ih (.sum left _ isOperator derivation)
      simpa [Derivation.tokens] using whole
  | product left isOperator _ ih =>
      intro derivation
      have whole := ih (.product left _ isOperator derivation)
      simpa [Derivation.tokens] using whole
  | signed isSign _ ih =>
      intro derivation
      have whole := ih (.signed _ isSign derivation)
      simpa [Derivation.tokens] using whole
  | @group _ front opening opens _ ih =>
      intro derivation
      -- The group is closed right behind the derivation, and what follows is cut off again.
      obtain ⟨closing, closes⟩ : ∃ closing : Token, closing.IsClosing :=
        ⟨⟨.rightParenthesis, ")", 0⟩, rfl, rfl⟩
      have whole := ih (.group opening closing opens closes derivation)
      exact whole.of_begins ⟨[closing], by simp [Derivation.tokens]⟩

theorem expression_of_term (awaits : Awaits .term groups front) (term : Derivation .term) :
    ∃ before, ∃ expression : Derivation .expression, Awaits .expression groups before ∧
      front ++ term.tokens = before ++ expression.tokens := by
  cases awaits with
  | term awaits => exact ⟨front, .alone term, awaits, rfl⟩
  | @sum _ before operator left isOperator awaits =>
      exact ⟨before, .sum left operator isOperator term, awaits, by simp [Derivation.tokens]⟩

theorem term_of_factor {wanted : Nonterminal} (awaits : Awaits wanted groups front)
    (isFactor : wanted = .factor) (factor : Derivation .factor) :
    ∃ before, ∃ term : Derivation .term, Awaits .term groups before ∧
      front ++ factor.tokens = before ++ term.tokens := by
  -- Each sign that waits takes the factor into a longer one, until none is left.
  induction awaits generalizing factor with
  | start => cases isFactor
  | term => cases isFactor
  | sum => cases isFactor
  | group => cases isFactor
  | @factor _ front awaits => exact ⟨front, .single factor, awaits, rfl⟩
  | @product _ before operator left isOperator awaits =>
      exact ⟨before, .product left operator isOperator factor, awaits, by simp [Derivation.tokens]⟩
  | @signed _ front sign isSign _ ih =>
      obtain ⟨before, term, awaits, shape⟩ := ih rfl (.signed sign isSign factor)
      refine ⟨before, term, awaits, ?_⟩
      rw [← shape]
      simp [Derivation.tokens]

theorem opened (awaits : Awaits .expression (groups + 1) front) :
    ∃ before opening, opening.IsOpening ∧ Awaits .factor groups before ∧
      front = before ++ [opening] := by
  cases awaits with
  | group opens awaits => exact ⟨_, _, opens, awaits, rfl⟩

end Awaits

/-- What has been read of an expression where the pass over its tokens stands: a factor is wanted
next, or a term has just ended. -/
inductive Reached (nesting : Nesting) (front : List Token) : Prop where
  | wanting : nesting.AtOperand → Awaits .factor nesting.outer.length front → Reached nesting front
  | behind {before : List Token} (term : Derivation .term) : ¬ nesting.AtOperand →
      Awaits .term nesting.outer.length before → front = before ++ term.tokens →
      Reached nesting front

namespace Reached

variable {nesting : Nesting} {front : List Token} {token : Token}

theorem start : Reached Nesting.start [] :=
  .wanting Nesting.start_atOperand (.factor (.term .start))

theorem awaits (reached : Reached nesting front) (atOperand : nesting.AtOperand) :
    Awaits .factor nesting.outer.length front := by
  cases reached with
  | wanting _ awaits => exact awaits
  | behind _ behindOperand => exact absurd atOperand behindOperand

theorem exists_term (reached : Reached nesting front) (behindOperand : ¬ nesting.AtOperand) :
    ∃ before, ∃ term : Derivation .term, Awaits .term nesting.outer.length before ∧
      front = before ++ term.tokens := by
  cases reached with
  | wanting atOperand => exact absurd atOperand behindOperand
  | behind term _ awaits shape => exact ⟨_, term, awaits, shape⟩

theorem of_factor {groups : Nat} (awaits : Awaits .factor groups front)
    (factor : Derivation .factor) (behindOperand : ¬ nesting.AtOperand)
    (count : nesting.outer.length = groups) : Reached nesting (front ++ factor.tokens) := by
  subst count
  obtain ⟨before, term, awaits, shape⟩ := awaits.term_of_factor rfl factor
  exact .behind term behindOperand awaits shape

theorem next (reached : Reached nesting front) (fits : nesting.Fits token) :
    Reached (nesting.next token) (front ++ [token]) := by
  cases fits with
  | numeral atOperand isNumeral =>
      rw [Nesting.next_numeral isNumeral]
      exact of_factor (reached.awaits atOperand) (.numeral token isNumeral)
        Nesting.not_atOperand_numeral rfl
  | sign atOperand isSign =>
      rw [Nesting.next_sign atOperand isSign]
      exact .wanting (Nesting.atOperand_of_additive isSign)
        (.signed isSign (reached.awaits atOperand))
  | opening atOperand opens =>
      rw [Nesting.next_opening opens]
      exact .wanting rfl (.factor (.term (.group opens (reached.awaits atOperand))))
  | additive behindOperand isOperator =>
      obtain ⟨_, term, awaits, rfl⟩ := reached.exists_term behindOperand
      obtain ⟨before, left, awaits, shape⟩ := awaits.expression_of_term term
      rw [Nesting.next_additive behindOperand isOperator, shape, List.append_assoc]
      exact .wanting (Nesting.atOperand_of_additive isOperator)
        (.factor (.sum left isOperator awaits))
  | multiplicative behindOperand isOperator =>
      obtain ⟨before, left, awaits, rfl⟩ := reached.exists_term behindOperand
      rw [Nesting.next_multiplicative isOperator, List.append_assoc]
      exact .wanting (Nesting.atOperand_of_multiplicative isOperator)
        (.product left isOperator awaits)
  | closing behindOperand opened closes =>
      obtain ⟨_, term, awaits, rfl⟩ := reached.exists_term behindOperand
      obtain ⟨before, inner, awaits, shape⟩ := awaits.expression_of_term term
      obtain ⟨signs, outer, outer_eq⟩ := List.exists_cons_of_ne_nil opened
      rw [outer_eq, List.length_cons] at awaits
      obtain ⟨outside, opening, opens, awaitsGroup, rfl⟩ := awaits.opened
      have group : outside ++ [opening] ++ inner.tokens ++ [token] =
          outside ++ (Derivation.group opening token opens closes inner).tokens := by
        simp [Derivation.tokens]
      rw [Nesting.next_closing closes outer_eq, shape, group]
      exact of_factor awaitsGroup _ Nesting.not_atOperand_closing rfl

theorem after {tokens : List Token} (takes : nesting.Takes tokens)
    (reached : Reached nesting front) : Reached (nesting.after tokens) (front ++ tokens) := by
  induction takes generalizing front with
  | nil => simpa using reached
  | @cons nesting token rest fits _ ih =>
      have reached := ih (reached.next fits)
      simpa using reached

theorem continuable (reached : Reached nesting front) : Continuable front := by
  cases reached with
  | wanting _ awaits =>
      have isNumeral : (⟨.number, "0", 0⟩ : Token).IsNumeral :=
        Token.isNumeral_of_digit '0' rfl 0
      exact (awaits.continuable (.numeral _ isNumeral)).of_begins (List.prefix_append _ _)
  | behind term _ awaits shape =>
      rw [shape]
      exact awaits.continuable term

end Reached

/-- Tokens can be continued to an expression exactly when each of them fits. -/
theorem continuable_iff_takes {front : List Token} :
    Continuable front ↔ Nesting.start.Takes front := by
  constructor
  · rintro ⟨rest, derivation, shape⟩
    have takes := Nesting.takes_derivation derivation Nesting.start Nesting.start_atOperand
    rw [shape] at takes
    exact (Nesting.takes_append_iff.mp takes).1
  · intro takes
    exact (Reached.start.after takes).continuable

theorem IsExpression.closed {tokens : List Token} (expression : IsExpression tokens) :
    (Nesting.start.after tokens).Closed := by
  obtain ⟨derivation, rfl⟩ := expression
  obtain ⟨-, -, outer, behindOperand⟩ :=
    Nesting.after_derivation derivation Nesting.start Nesting.start_atOperand
  exact ⟨behindOperand, outer⟩

end Reckon
