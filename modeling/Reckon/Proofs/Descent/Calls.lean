import Reckon.Proofs.Descent.Language
import Reckon.Proofs.Descent.Watching

/-!
# Calls of the descent

How deep the calls of the descent lie inside each other. The pass that counts nesting foresees them:
where a factor comes next, the open signs and parentheses are as many as the calls of `factor`
around it, and the open parentheses tell how often the other two functions are active. This holds as
long as the descent goes on, whether or not what it has read can be continued to an expression. So a
limit on the nesting is a limit on the calls.
-/

set_option autoImplicit false

namespace Reckon

open Grammar (Nesting checkNesting maxNesting)
open Descent (Admitted height)

namespace Watched

/-- At no moment was a function active more often than the limit allows. -/
def IsWithin (limit : Nat) (watched : Watched) : Prop :=
  ∀ moment ∈ watched.moments, ∀ nonterminal, moment.count nonterminal ≤ limit + 1

/-- What is active around a call, by the nesting where it is made. Each open sign or parenthesis has
a factor around it. Of the other functions there is a call for each open parenthesis, and one more
if the way down to the next factor has passed it since. -/
structure Accounts (nonterminal : Nonterminal) (limit : Nat) (active : List Nonterminal)
    (nesting : Nesting) : Prop where
  factors : active.count .factor = nesting.depth
  others : ∀ other, other ≠ .factor → active.count other =
    nesting.outer.length + if height nonterminal < height other then 1 else 0
  opened : nesting.outer.length ≤ nesting.depth
  shallow : nesting.depth ≤ limit

namespace Accounts

variable {limit : Nat} {active : List Nonterminal} {nesting : Nesting} {token : Token}
  {rest : List Token}

theorem count_le {nonterminal : Nonterminal} (accounts : Accounts nonterminal limit active nesting)
    (other : Nonterminal) : (nonterminal :: active).count other ≤ limit + 1 := by
  obtain ⟨factors, others, opened, shallow⟩ := accounts
  rw [List.count_cons]
  by_cases isFactor : other = .factor
  · subst isFactor
    rw [factors]
    split <;> omega
  · rw [others other isFactor]
    by_cases same : nonterminal = other
    · subst same
      simp only [Nat.lt_irrefl, ↓reduceIte, beq_self_eq_true]
      omega
    · simp only [beq_iff_eq, same, ↓reduceIte]
      split <;> omega

theorem operand (level : Descent.Level) (accounts : Accounts level.whole limit active nesting) :
    Accounts level.operand limit (level.whole :: active) nesting := by
  obtain ⟨factors, others, opened, shallow⟩ := accounts
  refine ⟨?_, ?_, opened, shallow⟩
  · rw [List.count_cons_of_ne level.whole_ne, factors]
  · intro other notFactor
    have higher := level.height_whole
    have heights : height level.whole = height other ↔ level.whole = other :=
      ⟨Descent.height_injective, congrArg height⟩
    rw [List.count_cons, others other notFactor]
    simp only [beq_iff_eq, ← heights]
    split_ifs <;> omega

theorem behind_sign (sign : token.IsAdditive)
    (admitted : Admitted .factor limit nesting (token :: rest))
    (accounts : Accounts .factor limit active nesting) :
    Accounts .factor limit (.factor :: active) (nesting.next token) := by
  obtain ⟨allowed, _⟩ := Nesting.check_cons_eq_ok_iff.mp admitted.allowed
  obtain ⟨factors, others, opened, shallow⟩ := accounts
  rw [Nesting.next_sign admitted.atOperand sign] at allowed ⊢
  refine ⟨?_, ?_, Nat.le_succ_of_le opened, by exact_mod_cast allowed⟩
  · rw [List.count_cons_self, factors]
  · intro other notFactor
    rw [List.count_cons_of_ne (Ne.symm notFactor), others other notFactor]

theorem behind_opening (opening : token.IsOpening)
    (admitted : Admitted .factor limit nesting (token :: rest))
    (accounts : Accounts .factor limit active nesting) :
    Accounts .expression limit (.factor :: active) (nesting.next token) := by
  obtain ⟨allowed, _⟩ := Nesting.check_cons_eq_ok_iff.mp admitted.allowed
  obtain ⟨factors, others, opened, shallow⟩ := accounts
  rw [Nesting.next_opening opening] at allowed ⊢
  refine ⟨?_, ?_, Nat.succ_le_succ opened, by exact_mod_cast allowed⟩
  · rw [List.count_cons_self, factors]
  · intro other notFactor
    rw [List.count_cons_of_ne (Ne.symm notFactor), others other notFactor, List.length_cons]
    cases other with
    | expression => rfl
    | term => rfl
    | factor => exact absurd rfl notFactor

theorem behind_operator (level : Descent.Level) {left : Derivation level.whole}
    (operator : level.IsOperator token)
    (admitted : Admitted level.whole limit nesting (left.tokens ++ token :: rest))
    (accounts : Accounts level.whole limit active nesting) :
    Accounts level.operand limit (level.whole :: active)
      ((nesting.after left.tokens).next token) := by
  obtain ⟨factors, others, opened, shallow⟩ := accounts.operand level
  rw [admitted.next_operator level operator]
  exact ⟨factors, others, opened, shallow⟩

end Accounts

section Bounds

variable {α β : Type} {limit : Nat} {before after : Watched} {run : Run α} {next : α → Run β}
  {onValue : α → Watched → Prop} {onResult : β → Watched → Prop}

/-- A run stays within the limit, and a value that it returns is right for the state it leaves. -/
def StaysWithin (limit : Nat) (run : Run α) (before : Watched) (onValue : α → Watched → Prop) :
    Prop :=
  match run before with
  | .ok value after => after.IsWithin limit ∧ onValue value after
  | .error _ after => after.IsWithin limit

theorem StaysWithin.of_ok {value : α} (done : run before = .ok value after)
    (within : after.IsWithin limit) (holds : onValue value after) :
    StaysWithin limit run before onValue := by
  rw [StaysWithin, done]
  exact ⟨within, holds⟩

theorem StaysWithin.of_error {fault : Fault} (refused : run before = .error fault after)
    (within : after.IsWithin limit) : StaysWithin limit run before onValue := by
  rw [StaysWithin, refused]
  exact within

theorem StaysWithin.bind (first : StaysWithin limit run before onValue)
    (rest : ∀ value middle, middle.IsWithin limit → onValue value middle →
      StaysWithin limit (next value) middle onResult) :
    StaysWithin limit (run >>= next) before onResult := by
  cases outcome : run before with
  | ok value middle =>
      rw [StaysWithin, outcome] at first
      have second := rest value middle first.1 first.2
      unfold StaysWithin at second ⊢
      rwa [run_bind_ok outcome]
  | error fault middle =>
      rw [StaysWithin, outcome] at first
      exact .of_error (run_bind_error outcome) first

theorem StaysWithin.bind_ok {value : α} (done : run before = .ok value after)
    (rest : StaysWithin limit (next value) after onResult) :
    StaysWithin limit (run >>= next) before onResult := by
  unfold StaysWithin at rest ⊢
  rwa [run_bind_ok done]

theorem StaysWithin.bind_apart {run : Descent.Run α} {value : α} {descent : Descent}
    (done : run before.descent = .ok value descent)
    (rest : StaysWithin limit (next value) ⟨descent, before.moments⟩ onResult) :
    StaysWithin limit (apart run >>= next) before onResult := by
  refine .bind_ok ?_ rest
  rw [apart, done]

theorem StaysWithin.apart (run : Descent.Run α) (within : before.IsWithin limit) :
    StaysWithin limit (Watched.apart run) before fun value after =>
      run before.descent = .ok value after.descent := by
  unfold StaysWithin Watched.apart
  cases run before.descent with
  | ok value descent => exact ⟨within, rfl⟩
  | error fault descent => exact within

end Bounds

/-- A function stays within the limit wherever it may be called, and reads a derivation if it
returns. -/
def Bounded (limit : Nat) (nonterminal : Nonterminal) (active : List Nonterminal)
    (run : Run (Tree Text)) : Prop :=
  ∀ (watched : Watched) (nesting : Nesting), watched.IsWithin limit →
    Admitted nonterminal limit nesting watched.tokens →
    Accounts nonterminal limit active nesting →
    StaysWithin limit run watched fun _ after =>
      ∃ derivation : Derivation nonterminal, watched.tokens = derivation.tokens ++ after.tokens

variable {limit : Nat} {active : List Nonterminal} {operand inner : Run (Tree Text)}

theorem chain_bounded (level : Descent.Level)
    (operandBounded : Bounded limit level.operand (level.whole :: active) operand)
    {tokens : List Token} {nesting : Nesting}
    (admitted : Admitted level.whole limit nesting tokens)
    (accounts : Accounts level.whole limit active nesting) (turns : Nat)
    (left : Derivation level.whole) (tree : Tree Text) (watched : Watched)
    (within : watched.IsWithin limit) (read : tokens = left.tokens ++ watched.tokens) :
    StaysWithin limit (chain level.operators level.rule operand turns tree) watched
      fun _ after => ∃ derivation : Derivation level.whole,
        tokens = derivation.tokens ++ after.tokens := by
  -- As in the loop itself, the left operand so far accounts for what was read.
  induction turns generalizing left tree watched with
  | zero => exact .of_ok rfl within ⟨left, read⟩
  | succ turns ih =>
      have terminated : Terminated watched.tokens :=
        (read ▸ admitted.terminated).behind fun _ member => Derivation.isLexeme_of_mem member
      obtain ⟨token, rest, next⟩ := List.exists_cons_of_ne_nil terminated.ne_nil
      rw [chain]
      refine .bind_apart (Descent.atOperator_eq level.operators next) ?_
      cases continues : Descent.isOperatorOf level.operators token with
      | false => exact .of_ok rfl within ⟨left, read⟩
      | true =>
          rw [next] at terminated read
          have operator := level.isOperator terminated.head continues
          have behind := terminated.tail (level.isLexeme operator)
          rw [if_pos rfl]
          refine .bind_apart (level.kind_eq operator ▸ Descent.eat_eq next behind.ne_nil) ?_
          subst read
          have remaining : (⟨watched.descent.advanced, watched.moments⟩ : Watched).tokens = rest :=
            congrArg List.tail next
          refine .bind (operandBounded _ _ within
            (remaining ▸ admitted.behind_operator level operator)
            (accounts.behind_operator level operator admitted)) ?_
          rintro right after afterWithin ⟨derivation, readRight⟩
          refine .bind_apart (Descent.step_eq ..) ?_
          refine ih (level.fold left token operator derivation) _ _ afterWithin ?_
          rw [level.tokens_fold, ← remaining, readRight]
          simp [tokens]

theorem level_bounded (level : Descent.Level)
    (operandBounded : Bounded limit level.operand (level.whole :: active) operand) :
    Bounded limit level.whole active (Watched.level level operand) := by
  intro watched nesting within admitted accounts
  refine .bind_apart (Descent.step_eq ..) ?_
  refine .bind (operandBounded _ nesting within (admitted.operand level)
    (accounts.operand level)) ?_
  rintro first after afterWithin ⟨derivation, read⟩
  refine .bind_ok (run_get after) ?_
  refine chain_bounded level operandBounded admitted accounts _ (level.only derivation) first after
    afterWithin ?_
  rw [level.tokens_only]
  exact read

section Factors

variable {nesting : Nesting} {token : Token} {rest : List Token} {watched : Watched}

theorem signed_bounded (operandBounded : Bounded limit .factor (.factor :: active) operand)
    (admitted : Admitted .factor limit nesting (token :: rest))
    (accounts : Accounts .factor limit active nesting) (sign : token.IsAdditive)
    (within : watched.IsWithin limit) (next : watched.tokens = rest) :
    StaysWithin limit (do
        let tree ← operand
        Watched.apart (Descent.step .reduce ("Created unary operation: " ++ token.text) none)
        return .unary token.text tree : Run (Tree Text)) watched
      fun _ after => ∃ derivation : Derivation .factor,
        token :: rest = derivation.tokens ++ after.tokens := by
  subst next
  refine .bind (operandBounded watched _ within (admitted.behind_sign sign)
    (accounts.behind_sign sign admitted)) ?_
  rintro tree after afterWithin ⟨derivation, read⟩
  refine .bind_apart (Descent.step_eq ..) (.of_ok rfl afterWithin ?_)
  exact ⟨.signed token sign derivation, by rw [read]; rfl⟩

theorem group_bounded (innerBounded : Bounded limit .expression (.factor :: active) inner)
    (admitted : Admitted .factor limit nesting (token :: rest))
    (accounts : Accounts .factor limit active nesting) (opening : token.IsOpening)
    (within : watched.IsWithin limit) (next : watched.tokens = rest) :
    StaysWithin limit (do
        let tree ← inner
        let _ ← Watched.apart (Descent.eat .rightParenthesis)
        Watched.apart (Descent.step .reduce "Completed parenthesized expression" none)
        return tree : Run (Tree Text)) watched
      fun _ after => ∃ derivation : Derivation .factor,
        token :: rest = derivation.tokens ++ after.tokens := by
  subst next
  have behind := admitted.terminated.tail (.opening opening)
  refine .bind (innerBounded watched _ within (admitted.behind_opening opening)
    (accounts.behind_opening opening admitted)) ?_
  rintro tree after afterWithin ⟨derivation, read⟩
  have terminated := (read ▸ behind).behind fun _ member => Derivation.isLexeme_of_mem member
  obtain ⟨last, others, nextAfter⟩ := List.exists_cons_of_ne_nil terminated.ne_nil
  rw [nextAfter] at terminated read
  by_cases closes : last.kind = .rightParenthesis
  · have closing := Token.isClosing_of_kind terminated.head closes
    have remains := (terminated.tail (.closing closing)).ne_nil
    refine .bind_apart (closes ▸ Descent.eat_eq nextAfter remains) ?_
    refine .bind_apart (Descent.step_eq ..) (.of_ok rfl afterWithin ?_)
    refine ⟨.group token last opening closing derivation, ?_⟩
    have remaining : after.descent.unread.tokens.tail = others := congrArg List.tail nextAfter
    simpa [Derivation.tokens, tokens, remaining] using read
  · refine .bind (.apart _ afterWithin) ?_
    intro _ middle _ eaten
    rw [Descent.eat_error nextAfter closes] at eaten
    cases eaten

theorem eq_of_numeral {tree : Tree Text} {descent after : Descent}
    (made : Descent.numeral token descent = .ok tree after) : after = descent := by
  unfold Descent.numeral at made
  cases number : token.number with
  | error fault =>
      rw [number] at made
      cases made
  | ok value =>
      rw [number] at made
      cases made
      rfl

theorem factor_bounded (operandBounded : Bounded limit .factor (.factor :: active) operand)
    (innerBounded : Bounded limit .expression (.factor :: active) inner) :
    Bounded limit .factor active (factor operand inner) := by
  intro watched nesting within admitted accounts
  obtain ⟨token, rest, next⟩ := List.exists_cons_of_ne_nil admitted.terminated.ne_nil
  rw [next] at admitted ⊢
  have advance : watched.descent.unread.tokens.tail = rest := congrArg List.tail next
  refine .bind_apart (Descent.current_eq next) (.bind_apart (Descent.step_eq ..) ?_)
  refine .bind_apart (Descent.atOperator_eq "+-" (by exact next)) ?_
  -- Only a sign and an opening parenthesis lead to another call.
  rcases admitted.terminated.head with lexeme | isLast
  · have behind := (admitted.terminated.tail lexeme).ne_nil
    cases lexeme with
    | numeral numeral =>
        rw [Descent.isOperatorOf_of_kind_ne _ (by simp [numeral.kind]), if_neg (by simp),
          numeral.kind]
        refine .bind_apart (numeral.kind ▸ Descent.eat_eq (by exact next) behind) ?_
        refine .bind (.apart _ within) ?_
        intro tree middle middleWithin made
        refine .bind_apart (Descent.step_eq ..) (.of_ok rfl middleWithin ?_)
        refine ⟨.numeral token numeral, ?_⟩
        simp [Derivation.tokens, tokens, eq_of_numeral made, advance]
    | additive sign =>
        rw [Descent.isOperatorOf_additive sign, if_pos rfl]
        refine .bind_apart (sign.kind ▸ Descent.eat_eq (by exact next) behind) ?_
        refine signed_bounded operandBounded admitted accounts sign ?_ advance
        exact within
    | multiplicative multiplicative =>
        rw [Descent.not_isOperatorOf_multiplicative multiplicative, multiplicative.kind]
        exact .of_error rfl within
    | opening opening =>
        rw [Descent.isOperatorOf_of_kind_ne _ (by simp [opening.kind]), if_neg (by simp),
          opening.kind]
        refine .bind_apart (Descent.step_eq ..) ?_
        refine .bind_apart (opening.kind ▸ Descent.eat_eq (by exact next) behind) ?_
        refine group_bounded innerBounded admitted accounts opening ?_ advance
        exact within
    | closing closing =>
        rw [Descent.isOperatorOf_of_kind_ne _ (by simp [closing.kind]), closing.kind]
        exact .of_error rfl within
  · rw [Descent.isOperatorOf_of_kind_ne _ (by simp [isLast]), isLast]
    exact .of_error rfl within

end Factors

theorem parser_bounded (limit calls : Nat) (nonterminal : Nonterminal)
    (active : List Nonterminal) :
    Bounded limit nonterminal active (parser calls nonterminal active) := by
  induction calls generalizing nonterminal active with
  | zero =>
      intro watched nesting within _ _
      exact .of_error rfl within
  | succ calls ih =>
      intro watched nesting within admitted accounts
      have entered :
          IsWithin limit ⟨watched.descent, (nonterminal :: active) :: watched.moments⟩ := by
        intro moment member
        rcases List.mem_cons.mp member with rfl | earlier
        · exact accounts.count_le
        · exact within moment earlier
      refine .bind_ok rfl ?_
      cases nonterminal with
      | expression =>
          exact level_bounded .sums (ih .term _) _ nesting entered admitted accounts
      | term => exact level_bounded .products (ih .factor _) _ nesting entered admitted accounts
      | factor =>
          exact factor_bounded (ih .factor _) (ih .expression _) _ nesting entered admitted accounts

theorem accounts_start (limit : Nat) : Accounts .expression limit [] Nesting.start where
  factors := rfl
  others other _ := by cases other <;> rfl
  opened := Nat.le_refl 0
  shallow := Nat.zero_le limit

theorem count_le_of_mem_watch {tokens : List Token} (wellFormed : WellFormed tokens)
    (allowed : checkNesting tokens limit = .ok ()) {calls : Nat} {log : StepLog}
    {moment : List Nonterminal} (member : moment ∈ momentsOf (watch calls tokens log))
    (nonterminal : Nonterminal) : moment.count nonterminal ≤ limit + 1 := by
  have nothing : IsWithin limit (start tokens log) := fun _ noted => by cases noted
  have stays := parser_bounded limit calls .expression [] (start tokens log) Nesting.start nothing
    (Descent.admitted_start wellFormed allowed) (accounts_start limit)
  unfold StaysWithin at stays
  unfold watch at member
  cases outcome : parser calls .expression [] (start tokens log) with
  | ok tree after =>
      rw [outcome] at stays member
      exact stays.1 moment member nonterminal
  | error fault after =>
      rw [outcome] at stays member
      exact stays moment member nonterminal

end Watched

theorem length_eq_counts (calls : List Nonterminal) :
    calls.length = calls.count .expression + calls.count .term + calls.count .factor := by
  induction calls with
  | nil => rfl
  | cons nonterminal calls ih =>
      cases nonterminal <;> simp [ih] <;> omega

/-- The nesting bounds the calls of the top-down parser. On every stream, of the language or not,
for which a limit allows the nesting, each of its functions is at every moment active once more than
the limit at most, however the descent ends and however many calls it may make. So the parser, whose
own limit allows 603 calls inside each other, has enough calls with that many, and never runs out of
them. -/
theorem nesting_bounds_active_calls {tokens : List Token} (wellFormed : WellFormed tokens) :
    (∀ limit : Nat, checkNesting tokens limit = .ok () → ∀ (calls : Nat) (log : StepLog),
      Watched.forget (Watched.watch calls tokens log) =
          Descent.expression calls (Descent.start tokens log) ∧
        ∀ moment ∈ Watched.momentsOf (Watched.watch calls tokens log),
          ∀ nonterminal, moment.count nonterminal ≤ limit + 1) ∧
    (checkNesting tokens maxNesting = .ok () → ∀ (calls : Nat) (log : StepLog),
      (∀ moment ∈ Watched.momentsOf (Watched.watch calls tokens log), moment.length ≤ 603) ∧
        (603 ≤ calls → ∀ after,
          Descent.expression calls (Descent.start tokens log) ≠ .error .callDepth after)) ∧
    Descent.parse tokens ≠ .error .callDepth := by
  refine ⟨?_, ?_, ?_⟩
  · intro limit allowed calls log
    exact ⟨Watched.forget_watch calls tokens log,
      fun moment member => Watched.count_le_of_mem_watch wellFormed allowed member⟩
  · intro allowed calls log
    constructor
    · intro moment member
      have bound := Watched.count_le_of_mem_watch wellFormed allowed member
      have expressions := bound .expression
      have terms := bound .term
      have factors := bound .factor
      rw [length_eq_counts]
      simp only [maxNesting] at expressions terms factors
      omega
    · intro enough after exhausted
      have ready : Descent.Ready .expression maxNesting calls Nesting.start tokens :=
        ⟨Descent.admitted_start wellFormed allowed, enough⟩
      obtain ⟨cause, token, -, isCallDepth, -⟩ :=
        (Descent.parser_sound .expression maxNesting calls (Descent.start tokens log) _ ready).error
          exhausted
      cases isCallDepth
  · intro exhausted
    obtain ⟨cause, token, -, isCallDepth, -⟩ :=
      (Descent.parse_followsGrammar wellFormed).refuses exhausted
    cases isCallDepth

/-- The tokens of `-(1`, which no expression has. -/
def unclosedGroup : List Token :=
  [⟨.operator, "-", 0⟩, ⟨.leftParenthesis, "(", 1⟩, ⟨.number, "1", 2⟩, ⟨.endOfInput, "", 3⟩]

theorem unclosedGroup_wellFormed : WellFormed unclosedGroup where
  terminated := .lexeme (.additive ⟨rfl, .inr rfl⟩) <| .lexeme (.opening ⟨rfl, rfl⟩) <|
    .lexeme (.numeral (Token.isNumeral_of_digit '1' rfl 2)) <|
      .last rfl
  nonempty := by decide

/-- A sign and a parenthesis make three calls of `factor`, which is as many as the limit allows. -/
theorem unclosedGroup_calls :
    checkNesting unclosedGroup (2 : Nat) = .ok () ∧
      (∀ moment ∈ Watched.momentsOf (Watched.watch depthLimit unclosedGroup .empty),
        ∀ nonterminal, moment.count nonterminal ≤ 2 + 1) ∧
      (∃ moment ∈ Watched.momentsOf (Watched.watch depthLimit unclosedGroup .empty),
        moment.count .factor = 2 + 1) ∧
      Descent.parse unclosedGroup ≠ .error .callDepth := by
  obtain ⟨bounded, -, neverExhausted⟩ := nesting_bounds_active_calls unclosedGroup_wellFormed
  refine ⟨by decide, (bounded 2 (by decide) depthLimit .empty).2, ?_, neverExhausted⟩
  exact ⟨[.factor, .term, .expression, .factor, .factor, .term, .expression], by decide +kernel,
    by decide⟩

end Reckon
