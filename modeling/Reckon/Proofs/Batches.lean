import Reckon.Proofs.Comparison
import Reckon.Proofs.Spellings

/-!
# Which batches come to an end

A batch stops at the first comparison that fails, and a comparison fails for one cause only: both
strategies have found the tree of an expression, and it is deeper than a walk can go. Evaluating
such a tree fails as other evaluations do, and the comparison reports it; comparing the two trees
with each other does not. Sums fold to the left, so a long sum is enough for such a tree, with no
nesting that the parsers would refuse.
-/

set_option autoImplicit false

namespace Reckon

variable {expression : Text} {tokens : List Token} {cap? : Option Int}

/-- Both strategies parse an expression, to a tree that is deeper than a walk can go. -/
def ParsesTooDeep (expression : Text) (cap? : Option Int) : Prop :=
  ∃ tokens topDown bottomUp, Token.tokenize expression = .ok tokens ∧
    Strategy.topDown.parse tokens cap? = .ok topDown ∧
    Strategy.bottomUp.parse tokens cap? = .ok bottomUp ∧ depthLimit < topDown.tree.depth

namespace Comparison

/-- What goes wrong with one strategy is always about the source, so an attempt never fails. -/
theorem exists_attempt (expression : Text) (cap? : Option Int) (wellFormed : WellFormed tokens)
    (strategy : Strategy) :
    ∃ made, attempt expression tokens cap? strategy = .ok made ∧
      made.parsed = (strategy.parse tokens cap?).toOption := by
  cases answer : strategy.parse tokens cap? with
  | error fault =>
      obtain ⟨cause, token, -, rfl⟩ := strategy.exists_token_of_refused wellFormed answer
      exact ⟨_, attempt_of_refused answer, rfl⟩
  | ok parsed =>
      have legal := (strategy.parse_reads wellFormed answer).isLegal
      cases evaluated : Evaluation.value parsed.tree with
      | error fault =>
          obtain ⟨cause, rfl, -⟩ := Evaluation.value_error_of_isLegal legal evaluated
          exact ⟨_, attempt_of_failed answer evaluated, rfl⟩
      | ok result => exact ⟨_, attempt_of_evaluated answer evaluated, rfl⟩

/-- The trees that two attempts found are compared by walking over the one tree that they are. -/
theorem attemptsSameTree_eq (wellFormed : WellFormed tokens) {topDown bottomUp : Attempt}
    (topDownParsed : topDown.parsed = (Strategy.topDown.parse tokens cap?).toOption)
    (bottomUpParsed : bottomUp.parsed = (Strategy.bottomUp.parse tokens cap?).toOption) :
    attemptsSameTree topDown bottomUp =
      match Strategy.topDown.parse tokens cap?, Strategy.bottomUp.parse tokens cap? with
      | .ok parsed, .ok _ => if parsed.tree.depth ≤ depthLimit then .ok true else .error .callDepth
      | _, _ => .ok false := by
  rw [attemptsSameTree, topDownParsed, bottomUpParsed]
  cases answer : Strategy.topDown.parse tokens cap? with
  | error fault => rfl
  | ok parsed =>
      cases answerToo : Strategy.bottomUp.parse tokens cap? with
      | error fault => rfl
      | ok parsedToo =>
          have means := Strategy.bottomUp.parse_reads wellFormed answerToo
          have same := (Descent.parse_followsGrammar wellFormed).eq_of_means answer means
          have legal := (Strategy.topDown.parse_reads wellFormed answer).isLegal
          change parsed.tree.same parsedToo.tree = _
          rw [← same]
          exact Tree.sameWithin_self_eq legal.foreignType?_eq_none depthLimit

end Comparison

theorem compareStrategies_error_iff {fault : Fault} :
    compareStrategies expression cap? = .error fault ↔
      fault = .callDepth ∧ ParsesTooDeep expression cap? := by
  unfold compareStrategies ParsesTooDeep
  cases lexed : Token.tokenize expression with
  | error other =>
      obtain ⟨cause, position, rfl, -⟩ := Token.tokenize_isLexical lexed
      simp [Comparison.failureOf, Fault.diagnosis?, bind, Except.bind, pure, Except.pure]
  | ok tokens =>
      have wellFormed := Token.tokenize_wellFormed lexed
      obtain ⟨topDown, made, parsed⟩ :=
        Comparison.exists_attempt expression cap? wellFormed .topDown
      obtain ⟨bottomUp, madeToo, parsedToo⟩ :=
        Comparison.exists_attempt expression cap? wellFormed .bottomUp
      have trees := Comparison.attemptsSameTree_eq wellFormed parsed parsedToo
      simp only [made, madeToo, Comparison.ofAttempts, trees, bind, Except.bind]
      cases answer : Strategy.topDown.parse tokens cap? with
      | error refused => simp [answer, pure, Except.pure]
      | ok found =>
          cases answerToo : Strategy.bottomUp.parse tokens cap? with
          | error refused => simp [answer, answerToo, pure, Except.pure]
          | ok foundToo =>
              by_cases visited : found.tree.depth ≤ depthLimit
              · simp [visited, answer, answerToo, pure, Except.pure]
              · have deep := Nat.not_le.mp visited
                simp [visited, deep, answer, answerToo, eq_comm]

theorem compareStrategies_ok_iff :
    (∃ comparison, compareStrategies expression cap? = .ok comparison) ↔
      ¬ ParsesTooDeep expression cap? := by
  cases compared : compareStrategies expression cap? with
  | error fault =>
      obtain ⟨rfl, tooDeep⟩ := compareStrategies_error_iff.mp compared
      simpa using tooDeep
  | ok comparison =>
      refine iff_of_true ⟨comparison, rfl⟩ fun tooDeep => ?_
      cases compared.symm.trans (compareStrategies_error_iff.mpr ⟨rfl, tooDeep⟩)

section LongSums

/-- So many further terms of a sum of ones. -/
def plusOnes : Nat → List Char
  | 0 => []
  | more + 1 => '+' :: '1' :: plusOnes more

/-- The sum of a one and so many further ones, such as `1+1+1`. -/
def sumOfOnes (more : Nat) : Text :=
  .ofCharacters ('1' :: plusOnes more)

def oneAt (position : Nat) : Token :=
  ⟨.number, "1", position⟩

def plusAt (position : Nat) : Token :=
  ⟨.operator, "+", position⟩

def plusOneTokens (position : Nat) : Nat → List Token
  | 0 => []
  | more + 1 => plusAt position :: oneAt (position + 1) :: plusOneTokens (position + 2) more

theorem oneAt_isNumeral (position : Nat) : (oneAt position).IsNumeral :=
  Token.isNumeral_of_digit '1' rfl position

theorem plusAt_isAdditive (position : Nat) : (plusAt position).IsAdditive :=
  ⟨rfl, .inl rfl⟩

theorem oneAt_isUnbounded (position : Nat) : (oneAt position).isUnbounded = false := by
  simp only [Token.isUnbounded, Token.value, oneAt]
  decide +kernel

/-- A derivation with so many further ones added to it. -/
def addOnes (left : Derivation .expression) (position : Nat) : Nat → Derivation .expression
  | 0 => left
  | more + 1 =>
    addOnes (.sum left (plusAt position) (plusAt_isAdditive position)
      (.single (.numeral (oneAt (position + 1)) (oneAt_isNumeral (position + 1)))))
      (position + 2) more

theorem tokens_addOnes (left : Derivation .expression) (position more : Nat) :
    (addOnes left position more).tokens = left.tokens ++ plusOneTokens position more := by
  induction more generalizing left position with
  | zero => simp [addOnes, plusOneTokens]
  | succ more ih => simp [addOnes, plusOneTokens, ih, Derivation.tokens]

theorem depth_addOnes (left : Derivation .expression) (position more : Nat) :
    (addOnes left position more).tree.depth = left.tree.depth + more := by
  induction more generalizing left position with
  | zero => rfl
  | succ more ih =>
      have some := left.tree.depth_pos
      rw [addOnes, ih, Derivation.tree, Tree.depth, Derivation.tree, Derivation.tree, Tree.depth]
      omega

def onesDerivation (more : Nat) : Derivation .expression :=
  addOnes (.alone (.single (.numeral (oneAt 0) (oneAt_isNumeral 0)))) 1 more

theorem tokens_onesDerivation (more : Nat) :
    (onesDerivation more).tokens = oneAt 0 :: plusOneTokens 1 more :=
  tokens_addOnes _ 1 more

theorem depth_onesDerivation (more : Nat) : (onesDerivation more).tree.depth = 1 + more :=
  depth_addOnes _ 1 more

theorem isUnbounded_of_mem_plusOneTokens {position more : Nat} {token : Token}
    (member : token ∈ plusOneTokens position more) : token.isUnbounded = false := by
  induction more generalizing position with
  | zero => cases member
  | succ more ih =>
      simp only [plusOneTokens, List.mem_cons] at member
      rcases member with rfl | rfl | inRest
      · exact (plusAt_isAdditive position).isUnbounded_eq_false
      · exact oneAt_isUnbounded (position + 1)
      · exact ih inRest

theorem outcome_onesDerivation (more : Nat) :
    (onesDerivation more).outcome = .ok (onesDerivation more).tree := by
  have bounded : ∀ token ∈ (onesDerivation more).tokens, token.isUnbounded = false := by
    intro token member
    rw [tokens_onesDerivation] at member
    rcases List.mem_cons.mp member with rfl | inSum
    · exact oneAt_isUnbounded 0
    · exact isUnbounded_of_mem_plusOneTokens inSum
  rw [Derivation.outcome_eq, Derivation.checkNumerals_eq_ok_iff.mpr bounded]
  rfl

theorem endsNumeral_plusOnes (more : Nat) :
    Token.EndsNumeral ((plusOnes more).map Glyph.whole) := by
  cases more with
  | zero => exact Token.endsNumeral_nil
  | succ more => exact Token.endsNumeral_cons.mpr (by decide)

theorem spells_plusOnes (position more : Nat) :
    Token.Spells position (plusOneTokens position more) ((plusOnes more).map Glyph.whole) := by
  induction more generalizing position with
  | zero => exact .done
  | succ more ih =>
      refine .in_front (.additive (plusAt_isAdditive position)) rfl rfl (by simp [plusAt]) ?_
      refine .in_front (.numeral (oneAt_isNumeral (position + 1))) rfl rfl
        (fun _ => endsNumeral_plusOnes more) ?_
      exact ih (position + 2)

theorem tokenize_sumOfOnes (more : Nat) :
    ∃ last : Token, last.kind = .endOfInput ∧
      Token.tokenize (sumOfOnes more) = .ok ((onesDerivation more).tokens ++ [last]) := by
  have noBlanks : (sumOfOnes more).leading = [] := List.takeWhile_cons_of_neg (by decide)
  refine ⟨Token.endOf (sumOfOnes more), rfl, ?_⟩
  refine Token.Spells.tokenize_eq ?_ (Derivation.tokens_ne_nil _)
  rw [noBlanks, tokens_onesDerivation]
  exact .in_front (.numeral (oneAt_isNumeral 0)) rfl rfl (fun _ => endsNumeral_plusOnes more)
    (spells_plusOnes 1 more)

/-- A sum opens nothing, so nothing is nested in it. -/
theorem check_plusOneTokens {limit : Int} (allowed : 0 ≤ limit) {position more : Nat}
    {last : Token} (isLast : last.kind = .endOfInput) :
    Grammar.Nesting.check limit ⟨0, 0, [], some "NUMBER"⟩
      (plusOneTokens position more ++ [last]) = .ok () := by
  induction more generalizing position with
  | zero =>
      rw [plusOneTokens, List.nil_append, Grammar.Nesting.check_cons_eq_ok_iff]
      simp [Grammar.Nesting.next, Grammar.Nesting.count, Token.symbol_of_kind_endOfInput isLast,
        endMark, Grammar.isSignSymbol, Grammar.Nesting.check, allowed]
  | succ more ih =>
      have behindOperand : ¬ Grammar.Nesting.AtOperand ⟨0, 0, [], some "NUMBER"⟩ := by
        unfold Grammar.Nesting.AtOperand
        decide
      rw [plusOneTokens, List.cons_append, List.cons_append,
        Grammar.Nesting.check_cons_eq_ok_iff,
        Grammar.Nesting.next_additive behindOperand (plusAt_isAdditive position),
        Grammar.Nesting.check_cons_eq_ok_iff,
        Grammar.Nesting.next_numeral (oneAt_isNumeral (position + 1))]
      exact ⟨allowed, allowed, ih⟩

theorem checkNesting_onesDerivation (more : Nat) {last : Token}
    (isLast : last.kind = .endOfInput) :
    Grammar.checkNesting ((onesDerivation more).tokens ++ [last]) Grammar.maxNesting = .ok () := by
  rw [tokens_onesDerivation, Grammar.checkNesting, List.cons_append,
    Grammar.Nesting.check_cons_eq_ok_iff, Grammar.Nesting.next_numeral (oneAt_isNumeral 0)]
  exact ⟨by decide, check_plusOneTokens (by decide) isLast⟩

theorem parsesTooDeep_sumOfOnes {more : Nat} (long : depthLimit ≤ more) :
    ParsesTooDeep (sumOfOnes more) none := by
  obtain ⟨last, isLast, lexed⟩ := tokenize_sumOfOnes more
  have wellFormed := Token.tokenize_wellFormed lexed
  have spans : (onesDerivation more).Spans ((onesDerivation more).tokens ++ [last]) :=
    ⟨last, isLast, rfl⟩
  have allowed := checkNesting_onesDerivation more isLast
  have outcome := outcome_onesDerivation more
  have descent := Descent.parse_followsGrammar wellFormed
  have machine := ShiftReduce.parse_followsGrammar wellFormed (ShiftReduce.suffices_none _)
  obtain ⟨topDown, descended, tree⟩ := descent.exists_of_outcome spans allowed outcome
  obtain ⟨bottomUp, folded, -⟩ := machine.exists_of_outcome spans allowed outcome
  refine ⟨_, topDown, bottomUp, lexed, descended, folded, ?_⟩
  rw [tree, depth_onesDerivation]
  omega

end LongSums

section Batch

variable {expressions : List Text} {batch : Batch}

theorem rows_of_compareBatch (compared : compareBatch expressions cap? = .ok batch) :
    List.Forall₂ (fun expression row => compareStrategies expression cap? = .ok row)
      expressions batch.rows := by
  obtain ⟨rows, rowsCompared, returned⟩ := except_bind_ok compared
  cases returned
  exact forall₂_of_mapM rowsCompared

theorem exists_of_compareBatch_error {fault : Fault}
    (failed : compareBatch expressions cap? = .error fault) :
    fault = .callDepth ∧ ∃ expression ∈ expressions, ParsesTooDeep expression cap? := by
  rcases except_bind_error failed with rowFailed | ⟨_, -, returned⟩
  · obtain ⟨expression, member, refused⟩ := exists_of_mapM_error rowFailed
    obtain ⟨rfl, tooDeep⟩ := compareStrategies_error_iff.mp refused
    exact ⟨rfl, expression, member, tooDeep⟩
  · cases returned

theorem compareBatch_ok_iff :
    (∃ batch, compareBatch expressions cap? = .ok batch) ↔
      ∀ expression ∈ expressions, ¬ ParsesTooDeep expression cap? := by
  constructor
  · rintro ⟨batch, compared⟩ expression member
    obtain ⟨row, -, rowCompared⟩ := exists_of_mem_forall₂ (rows_of_compareBatch compared) member
    exact compareStrategies_ok_iff.mp ⟨row, rowCompared⟩
  · intro shallow
    cases compared : compareBatch expressions cap? with
    | ok batch => exact ⟨batch, rfl⟩
    | error fault =>
        obtain ⟨-, expression, member, tooDeep⟩ := exists_of_compareBatch_error compared
        exact absurd tooDeep (shallow expression member)

/-- A comparison fails if and only if both strategies find a tree that is too deep, and a batch
comes to an end if and only if none of its expressions has such a tree. Then the batch has a row for
each expression, in order, which depends on that expression alone, and its disagreements are the
rows that do not agree. -/
theorem batch_ends_unless_a_tree_is_too_deep (expressions : List Text) (cap? : Option Int) :
    (∀ expression fault, compareStrategies expression cap? = .error fault ↔
        fault = .callDepth ∧ ParsesTooDeep expression cap?) ∧
      ((∃ batch, compareBatch expressions cap? = .ok batch) ↔
          ∀ expression ∈ expressions, ¬ ParsesTooDeep expression cap?) ∧
      (∀ fault, compareBatch expressions cap? = .error fault → fault = .callDepth) ∧
      ∀ batch, compareBatch expressions cap? = .ok batch →
        batch.total = expressions.length ∧
          List.Forall₂ (fun expression row => compareStrategies expression cap? = .ok row)
            expressions batch.rows ∧
          batch.disagreements = batch.rows.filter fun row => !row.agree := by
  refine ⟨fun _ _ => compareStrategies_error_iff, compareBatch_ok_iff,
    fun fault failed => (exists_of_compareBatch_error failed).1, ?_⟩
  intro batch compared
  have rows := rows_of_compareBatch compared
  exact ⟨rows.length_eq.symm, rows, rfl⟩

/-- The sum of twelve hundred ones is such an expression, and a batch that it stands in fails with
it. -/
theorem longSum_stops_its_batch :
    compareStrategies (sumOfOnes 1199) none = .error .callDepth ∧
      compareBatch ["1+2", sumOfOnes 1199] none = .error .callDepth := by
  have tooDeep : ParsesTooDeep (sumOfOnes 1199) none := parsesTooDeep_sumOfOnes (by decide)
  refine ⟨compareStrategies_error_iff.mpr ⟨rfl, tooDeep⟩, ?_⟩
  cases compared : compareBatch ["1+2", sumOfOnes 1199] none with
  | ok batch => exact absurd tooDeep (compareBatch_ok_iff.mp ⟨batch, compared⟩ _ (by simp))
  | error fault =>
      obtain ⟨rfl, -⟩ := exists_of_compareBatch_error compared
      rfl

end Batch

end Reckon
