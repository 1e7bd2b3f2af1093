import Reckon.Proofs.Language

/-!
# How deep factors are enclosed

The pass that counts nesting measures derivations. In front of each factor its count is the number
of signs and parentheses that enclose the factor, whatever came before them, and the pass refuses a
derivation exactly when a factor is enclosed too deeply. It stops at the first sign or parenthesis
that goes too deep.
-/

set_option autoImplicit false

namespace Reckon

namespace Derivation

variable {nonterminal : Nonterminal}

/-- The signs and parentheses around the factors that are enclosed most deeply. -/
def nesting {nonterminal : Nonterminal} : Derivation nonterminal → Nat
  | .numeral _ _ => 0
  | .group _ _ _ _ inner => inner.nesting + 1
  | .signed _ _ operand => operand.nesting + 1
  | .single factor => factor.nesting
  | .product left _ _ right => max left.nesting right.nesting
  | .alone term => term.nesting
  | .sum left _ _ right => max left.nesting right.nesting

/-- The token with which a factor encloses another one. -/
def opener? : Derivation .factor → Option Token
  | .numeral _ _ => none
  | .group opening _ _ _ _ => some opening
  | .signed sign _ _ => some sign

/-- A factor stands in a derivation behind some tokens of it, and so many signs and parentheses of
the derivation enclose it. -/
inductive Encloses (factor : Derivation .factor) :
    {nonterminal : Nonterminal} → Derivation nonterminal → List Token → Nat → Prop where
  | whole : Encloses factor factor [] 0
  | group {opening closing : Token} {inner : Derivation .expression} {front : List Token}
      {count : Nat} (opens : opening.IsOpening) (closes : closing.IsClosing) :
      Encloses factor inner front count →
      Encloses factor (.group opening closing opens closes inner) (opening :: front) (count + 1)
  | signed {sign : Token} {operand : Derivation .factor} {front : List Token} {count : Nat}
      (isSign : sign.IsAdditive) :
      Encloses factor operand front count →
      Encloses factor (.signed sign isSign operand) (sign :: front) (count + 1)
  | single {operand : Derivation .factor} {front : List Token} {count : Nat} :
      Encloses factor operand front count → Encloses factor (.single operand) front count
  | productLeft {left : Derivation .term} {operator : Token} {right : Derivation .factor}
      {front : List Token} {count : Nat} (isOperator : operator.IsMultiplicative) :
      Encloses factor left front count →
      Encloses factor (.product left operator isOperator right) front count
  | productRight {left : Derivation .term} {operator : Token} {right : Derivation .factor}
      {front : List Token} {count : Nat} (isOperator : operator.IsMultiplicative) :
      Encloses factor right front count →
      Encloses factor (.product left operator isOperator right)
        (left.tokens ++ operator :: front) count
  | alone {operand : Derivation .term} {front : List Token} {count : Nat} :
      Encloses factor operand front count → Encloses factor (.alone operand) front count
  | sumLeft {left : Derivation .expression} {operator : Token} {right : Derivation .term}
      {front : List Token} {count : Nat} (isOperator : operator.IsAdditive) :
      Encloses factor left front count →
      Encloses factor (.sum left operator isOperator right) front count
  | sumRight {left : Derivation .expression} {operator : Token} {right : Derivation .term}
      {front : List Token} {count : Nat} (isOperator : operator.IsAdditive) :
      Encloses factor right front count →
      Encloses factor (.sum left operator isOperator right)
        (left.tokens ++ operator :: front) count

theorem Encloses.begins {factor : Derivation .factor} {derivation : Derivation nonterminal}
    {front : List Token} {count : Nat} (encloses : Encloses factor derivation front count) :
    front ++ factor.tokens <+: derivation.tokens := by
  induction encloses with
  | whole => exact List.prefix_refl _
  | @group _ closing _ _ _ _ _ _ ih =>
      obtain ⟨rest, shape⟩ := ih
      exact ⟨rest ++ [closing], by simp [tokens, ← shape]⟩
  | signed _ _ ih => exact List.cons_prefix_cons.mpr ⟨rfl, ih⟩
  | single _ ih => exact ih
  | productLeft _ _ ih => exact ih.trans (List.prefix_append _ _)
  | productRight _ _ ih =>
      obtain ⟨rest, shape⟩ := ih
      exact ⟨rest, by simp [tokens, ← shape]⟩
  | alone _ ih => exact ih
  | sumLeft _ _ ih => exact ih.trans (List.prefix_append _ _)
  | sumRight _ _ ih =>
      obtain ⟨rest, shape⟩ := ih
      exact ⟨rest, by simp [tokens, ← shape]⟩

theorem Encloses.count_add_nesting_le {factor : Derivation .factor}
    {derivation : Derivation nonterminal} {front : List Token} {count : Nat}
    (encloses : Encloses factor derivation front count) :
    count + factor.nesting ≤ derivation.nesting := by
  induction encloses with
  | whole => exact (Nat.zero_add _).le
  | group _ _ _ ih =>
      rw [nesting]
      omega
  | signed _ _ ih =>
      rw [nesting]
      omega
  | single _ ih => exact ih
  | productLeft _ _ ih => exact ih.trans (Nat.le_max_left _ _)
  | productRight _ _ ih => exact ih.trans (Nat.le_max_right _ _)
  | alone _ ih => exact ih
  | sumLeft _ _ ih => exact ih.trans (Nat.le_max_left _ _)
  | sumRight _ _ ih => exact ih.trans (Nat.le_max_right _ _)

theorem exists_encloses_nesting (derivation : Derivation nonterminal) :
    ∃ factor front, Encloses factor derivation front derivation.nesting := by
  induction derivation with
  | numeral token isNumeral => exact ⟨_, _, .whole⟩
  | group opening closing opens closes inner ih =>
      obtain ⟨factor, front, encloses⟩ := ih
      exact ⟨factor, _, .group opens closes encloses⟩
  | signed sign isSign operand ih =>
      obtain ⟨factor, front, encloses⟩ := ih
      exact ⟨factor, _, .signed isSign encloses⟩
  | single operand ih =>
      obtain ⟨factor, front, encloses⟩ := ih
      exact ⟨factor, _, .single encloses⟩
  | product left operator isOperator right leftIH rightIH =>
      rcases Nat.le_total left.nesting right.nesting with rightDeeper | leftDeeper
      · obtain ⟨factor, front, encloses⟩ := rightIH
        rw [nesting, Nat.max_eq_right rightDeeper]
        exact ⟨factor, _, .productRight isOperator encloses⟩
      · obtain ⟨factor, front, encloses⟩ := leftIH
        rw [nesting, Nat.max_eq_left leftDeeper]
        exact ⟨factor, _, .productLeft isOperator encloses⟩
  | alone operand ih =>
      obtain ⟨factor, front, encloses⟩ := ih
      exact ⟨factor, _, .alone encloses⟩
  | sum left operator isOperator right leftIH rightIH =>
      rcases Nat.le_total left.nesting right.nesting with rightDeeper | leftDeeper
      · obtain ⟨factor, front, encloses⟩ := rightIH
        rw [nesting, Nat.max_eq_right rightDeeper]
        exact ⟨factor, _, .sumRight isOperator encloses⟩
      · obtain ⟨factor, front, encloses⟩ := leftIH
        rw [nesting, Nat.max_eq_left leftDeeper]
        exact ⟨factor, _, .sumLeft isOperator encloses⟩

theorem nesting_pos_of_opener {factor : Derivation .factor} {opener : Token}
    (opens : factor.opener? = some opener) : 0 < factor.nesting := by
  cases factor with
  | numeral => cases opens
  | group => exact Nat.succ_pos _
  | signed => exact Nat.succ_pos _

theorem exists_tokens_of_opener {factor : Derivation .factor} {opener : Token}
    (opens : factor.opener? = some opener) : ∃ rest, factor.tokens = opener :: rest := by
  cases factor with
  | numeral => cases opens
  | group =>
      cases opens
      exact ⟨_, rfl⟩
  | signed =>
      cases opens
      exact ⟨_, rfl⟩

theorem lt_nesting_iff {derivation : Derivation nonterminal} {limit : Nat} :
    limit < derivation.nesting ↔
      ∃ factor front count, Encloses factor derivation front count ∧ limit < count := by
  constructor
  · intro deep
    obtain ⟨factor, front, encloses⟩ := derivation.exists_encloses_nesting
    exact ⟨factor, front, _, encloses, deep⟩
  · rintro ⟨factor, front, count, encloses, deep⟩
    have within := encloses.count_add_nesting_le
    omega

end Derivation

namespace Grammar.Nesting

variable {nesting : Nesting} {token : Token}

/-- Something of a nonterminal may come next: an operand is wanted, and only a factor may stand
behind a sign. -/
structure Receives (nonterminal : Nonterminal) (nesting : Nesting) : Prop where
  atOperand : nesting.AtOperand
  settled : nonterminal ≠ .factor → nesting.signs = 0

namespace Receives

theorem start (nonterminal : Nonterminal) : Receives nonterminal start where
  atOperand := start_atOperand
  settled _ := rfl

theorem factor {nonterminal : Nonterminal} (receives : Receives nonterminal nesting) :
    Receives .factor nesting where
  atOperand := receives.atOperand
  settled notFactor := absurd rfl notFactor

theorem term (receives : Receives .expression nesting) : Receives .term nesting where
  atOperand := receives.atOperand
  settled _ := receives.settled (by decide)

theorem behind_sign (receives : Receives .factor nesting) (sign : token.IsAdditive) :
    (nesting.next token).depth = nesting.depth + 1 ∧ Receives .factor (nesting.next token) := by
  rw [next_sign receives.atOperand sign]
  exact ⟨rfl, atOperand_of_additive sign, fun notFactor => absurd rfl notFactor⟩

theorem behind_opening (opening : token.IsOpening) (nesting : Nesting) :
    (nesting.next token).depth = nesting.depth + 1 ∧
      Receives .expression (nesting.next token) := by
  rw [next_opening opening]
  exact ⟨rfl, rfl, fun _ => rfl⟩

/-- Behind a left operand and its operator the depth is what it was before them. -/
theorem behind_left {whole : Nonterminal} (receives : Receives whole nesting)
    (notFactor : whole ≠ .factor) (left : Derivation whole)
    (next_eq : ∀ {behind : Nesting}, ¬ behind.AtOperand →
      behind.next token = { behind with previous := some token.text })
    (atOperand : ∀ {depth signs : Nat} {outer : List Nat},
      AtOperand ⟨depth, signs, outer, some token.text⟩) (operand : Nonterminal) :
    ((nesting.after left.tokens).next token).depth = nesting.depth ∧
      Receives operand ((nesting.after left.tokens).next token) := by
  have settled := after_derivation left nesting receives.atOperand
  rw [next_eq settled.behindOperand]
  refine ⟨?_, atOperand, fun _ => settled.signs_eq⟩
  rw [settled.depth_eq, receives.settled notFactor, Nat.sub_zero]

theorem behind_product (receives : Receives .term nesting) (left : Derivation .term)
    (operator : token.IsMultiplicative) :
    ((nesting.after left.tokens).next token).depth = nesting.depth ∧
      Receives .factor ((nesting.after left.tokens).next token) :=
  receives.behind_left (by decide) left (fun _ => next_multiplicative operator)
    (atOperand_of_multiplicative operator) .factor

theorem behind_sum (receives : Receives .expression nesting) (left : Derivation .expression)
    (operator : token.IsAdditive) :
    ((nesting.after left.tokens).next token).depth = nesting.depth ∧
      Receives .term ((nesting.after left.tokens).next token) :=
  receives.behind_left (by decide) left (fun behindOperand => next_additive behindOperand operator)
    (atOperand_of_additive operator) .term

theorem behind_opener (receives : Receives .factor nesting) {factor : Derivation .factor}
    (opens : factor.opener? = some token) : (nesting.next token).depth = nesting.depth + 1 := by
  cases factor with
  | numeral => cases opens
  | group opening _ isOpening =>
      cases opens
      exact (behind_opening isOpening nesting).1
  | signed sign isSign =>
      cases opens
      exact (receives.behind_sign isSign).1

end Receives

end Grammar.Nesting

open Grammar (Nesting checkNesting)

/-- In front of an enclosed factor the count has grown by the signs and parentheses that enclose
it. -/
theorem Derivation.Encloses.arrives {nonterminal : Nonterminal} {factor : Derivation .factor}
    {derivation : Derivation nonterminal} {front : List Token} {count : Nat}
    (encloses : Encloses factor derivation front count) {nesting : Nesting}
    (receives : nesting.Receives nonterminal) :
    (nesting.after front).depth = nesting.depth + count ∧
      (nesting.after front).Receives .factor := by
  induction encloses generalizing nesting with
  | whole => exact ⟨rfl, receives⟩
  | group opens _ _ ih =>
      obtain ⟨depth, receivesInner⟩ := Nesting.Receives.behind_opening opens nesting
      obtain ⟨deeper, receivesFactor⟩ := ih receivesInner
      rw [Nesting.after_cons]
      exact ⟨by omega, receivesFactor⟩
  | signed isSign _ ih =>
      obtain ⟨depth, receivesOperand⟩ := receives.behind_sign isSign
      obtain ⟨deeper, receivesFactor⟩ := ih receivesOperand
      rw [Nesting.after_cons]
      exact ⟨by omega, receivesFactor⟩
  | single _ ih => exact ih receives.factor
  | productLeft _ _ ih => exact ih receives
  | @productRight left _ _ _ _ isOperator _ ih =>
      obtain ⟨depth, receivesRight⟩ := receives.behind_product left isOperator
      rw [Nesting.after_append, Nesting.after_cons, ← depth]
      exact ih receivesRight
  | alone _ ih => exact ih receives.term
  | sumLeft _ _ ih => exact ih receives
  | @sumRight left _ _ _ _ isOperator _ ih =>
      obtain ⟨depth, receivesRight⟩ := receives.behind_sum left isOperator
      rw [Nesting.after_append, Nesting.after_cons, ← depth]
      exact ih receivesRight

/-- What the pass makes of a derivation: it allows everything, or it stops at the token with which
an enclosed factor goes too deep, and allows all that stands in front of it. -/
inductive Measured (limit : Nat) (nesting : Nesting) {nonterminal : Nonterminal}
    (derivation : Derivation nonterminal) : Prop where
  | allowed : nesting.check limit derivation.tokens = .ok () →
      nesting.depth + derivation.nesting ≤ limit → Measured limit nesting derivation
  | refused {factor : Derivation .factor} {front : List Token} {count : Nat} {opener : Token} :
      Derivation.Encloses factor derivation front count → factor.opener? = some opener →
      nesting.check limit derivation.tokens = .error (.syntactic .tooDeep opener.position) →
      nesting.check limit front = .ok () → limit < nesting.depth + count + 1 →
      Measured limit nesting derivation

namespace Measured

variable {limit : Nat} {nesting : Nesting} {nonterminal whole operand : Nonterminal}

theorem opened {factor : Derivation .factor} {body : Derivation nonterminal} {opener : Token}
    {closing : List Token} (opens : factor.opener? = some opener)
    (tokens_eq : factor.tokens = opener :: (body.tokens ++ closing))
    (nesting_eq : factor.nesting = body.nesting + 1)
    (lifts : ∀ {inner front count}, Derivation.Encloses inner body front count →
      Derivation.Encloses inner factor (opener :: front) (count + 1))
    (depth : (nesting.next opener).depth = nesting.depth + 1)
    (closes : ((nesting.next opener).after body.tokens).check limit closing = .ok ())
    (measured : (nesting.next opener).depth ≤ limit → Measured limit (nesting.next opener) body) :
    Measured limit nesting factor := by
  by_cases deep : limit < (nesting.next opener).depth
  · refine .refused .whole opens ?_ rfl (by omega)
    rw [tokens_eq, Nesting.check_cons_of_lt deep]
  · have shallow := Nat.le_of_not_lt deep
    cases measured shallow with
    | allowed allowed low =>
        refine .allowed ?_ (by omega)
        rw [tokens_eq, Nesting.check_cons_of_le shallow, Nesting.check_append_of_ok allowed, closes]
    | refused encloses opener refused allowed tooDeep =>
        refine .refused (lifts encloses) opener ?_ ?_ (by omega)
        · rw [tokens_eq, Nesting.check_cons_of_le shallow, Nesting.check_append_of_error refused]
        · rw [Nesting.check_cons_of_le shallow, allowed]

theorem folded {left derivation : Derivation whole} {right : Derivation operand} {operator : Token}
    (tokens_eq : derivation.tokens = left.tokens ++ operator :: right.tokens)
    (nesting_eq : derivation.nesting = max left.nesting right.nesting)
    (liftsLeft : ∀ {inner front count}, Derivation.Encloses inner left front count →
      Derivation.Encloses inner derivation front count)
    (liftsRight : ∀ {inner front count}, Derivation.Encloses inner right front count →
      Derivation.Encloses inner derivation (left.tokens ++ operator :: front) count)
    (depth : ((nesting.after left.tokens).next operator).depth = nesting.depth)
    (shallow : nesting.depth ≤ limit) (measuredLeft : Measured limit nesting left)
    (measuredRight : Measured limit ((nesting.after left.tokens).next operator) right) :
    Measured limit nesting derivation := by
  cases measuredLeft with
  | refused encloses opener refused allowed tooDeep =>
      refine .refused (liftsLeft encloses) opener ?_ allowed tooDeep
      rw [tokens_eq, Nesting.check_append_of_error refused]
  | allowed allowedLeft lowLeft =>
      have goesOn : ∀ tokens, nesting.check limit (left.tokens ++ operator :: tokens) =
          ((nesting.after left.tokens).next operator).check limit tokens := by
        intro tokens
        rw [Nesting.check_append_of_ok allowedLeft, Nesting.check_cons_of_le (by omega)]
      cases measuredRight with
      | allowed allowed low =>
          refine .allowed ?_ (by omega)
          rw [tokens_eq, goesOn, allowed]
      | refused encloses opener refused allowed tooDeep =>
          refine .refused (liftsRight encloses) opener ?_ ?_ (by omega)
          · rw [tokens_eq, goesOn, refused]
          · rw [goesOn, allowed]

theorem passed {derivation : Derivation whole} {body : Derivation operand}
    (measured : Measured limit nesting body) (tokens_eq : derivation.tokens = body.tokens)
    (nesting_eq : derivation.nesting = body.nesting)
    (lifts : ∀ {inner front count}, Derivation.Encloses inner body front count →
      Derivation.Encloses inner derivation front count) : Measured limit nesting derivation := by
  cases measured with
  | allowed allowed low => exact .allowed (tokens_eq ▸ allowed) (nesting_eq ▸ low)
  | refused encloses opener refused allowed tooDeep =>
      exact .refused (lifts encloses) opener (tokens_eq ▸ refused) allowed tooDeep

end Measured

theorem Derivation.measured {nonterminal : Nonterminal} (derivation : Derivation nonterminal)
    {limit : Nat} {nesting : Nesting} (receives : nesting.Receives nonterminal)
    (shallow : nesting.depth ≤ limit) : Measured limit nesting derivation := by
  induction derivation generalizing nesting with
  | numeral token isNumeral =>
      have lower : (nesting.next token).depth ≤ limit := by
        rw [Nesting.next_numeral isNumeral]
        exact (Nat.sub_le _ _).trans shallow
      exact .allowed (Nesting.check_cons_of_le lower) shallow
  | group opening closing opens closes inner ih =>
      obtain ⟨depth, receivesInner⟩ := Nesting.Receives.behind_opening opens nesting
      have settled := Nesting.after_derivation inner _ receivesInner.atOperand
      have outer : ((nesting.next opening).after inner.tokens).outer =
          nesting.signs :: nesting.outer := by
        rw [settled.outer_eq, Nesting.next_opening opens]
      -- The closing parenthesis gives back its own level and those of the signs in front of it.
      have lower : (((nesting.next opening).after inner.tokens).next closing).depth ≤ limit := by
        rw [Nesting.next_closing closes outer, settled.depth_eq, depth]
        simp only
        omega
      exact .opened rfl rfl rfl (.group opens closes) depth (Nesting.check_cons_of_le lower)
        (ih receivesInner)
  | signed sign isSign operand ih =>
      obtain ⟨depth, receivesOperand⟩ := receives.behind_sign isSign
      have tokens_eq : (Derivation.signed sign isSign operand).tokens =
          sign :: (operand.tokens ++ []) := by rw [Derivation.tokens, List.append_nil]
      exact .opened rfl tokens_eq rfl (.signed isSign) depth rfl (ih receivesOperand)
  | single operand ih =>
      exact (ih receives.factor shallow).passed rfl rfl .single
  | product left operator isOperator right leftIH rightIH =>
      obtain ⟨depth, receivesRight⟩ := receives.behind_product left isOperator
      exact .folded rfl rfl (.productLeft isOperator) (.productRight isOperator) depth shallow
        (leftIH receives shallow) (rightIH receivesRight (by omega))
  | alone operand ih =>
      exact (ih receives.term shallow).passed rfl rfl .alone
  | sum left operator isOperator right leftIH rightIH =>
      obtain ⟨depth, receivesRight⟩ := receives.behind_sum left isOperator
      exact .folded rfl rfl (.sumLeft isOperator) (.sumRight isOperator) depth shallow
        (leftIH receives shallow) (rightIH receivesRight (by omega))

/-- Before a token that the pass stops at, no opener went too deep. -/
theorem Derivation.Encloses.shallow {derivation : Derivation .expression} {limit count : Nat}
    {factor : Derivation .factor} {front others : List Token} {opener : Token}
    (encloses : Encloses factor derivation others count) (opens : factor.opener? = some opener)
    (begins : front <+: derivation.tokens) (allowed : Nesting.start.check limit front = .ok ())
    (before : others.length < front.length) : count + 1 ≤ limit := by
  obtain ⟨rest, tokens_eq⟩ := exists_tokens_of_opener opens
  have inside : others ++ [opener] <+: derivation.tokens := by
    refine .trans ⟨rest, ?_⟩ encloses.begins
    rw [tokens_eq, List.append_assoc, List.singleton_append]
  -- The other opener is one of the tokens that were allowed, so the depth behind it is known.
  obtain ⟨more, rfl⟩ : others ++ [opener] <+: front :=
    List.prefix_of_prefix_length_le inside begins (by simpa using Nat.succ_le_of_lt before)
  obtain ⟨depth, receives⟩ := encloses.arrives (.start .expression)
  have low := Nesting.depth_after_le (Nat.zero_le limit)
    (Nesting.check_append_eq_ok_iff.mp allowed).1
  rw [Nesting.after_append, Nesting.after_cons, Nesting.after_nil, receives.behind_opener opens,
    depth] at low
  exact (Nat.zero_add count) ▸ low

variable {tokens : List Token} {derivation : Derivation .expression}

theorem Derivation.Spans.checkNesting_eq (spans : derivation.Spans tokens) (limit : Nat) :
    checkNesting tokens limit = Nesting.start.check limit derivation.tokens := by
  obtain ⟨last, isLast, rfl⟩ := spans
  have settled := Nesting.after_derivation derivation Nesting.start Nesting.start_atOperand
  unfold checkNesting
  cases checked : Nesting.start.check limit derivation.tokens with
  | error fault => exact Nesting.check_append_of_error checked
  | ok _ =>
      rw [Nesting.check_append_of_ok checked]
      refine Nesting.check_cons_of_le ?_
      rw [Nesting.next_endOfInput isLast, settled.depth_eq]
      exact Nat.zero_le limit

theorem Derivation.exists_error_iff {limit : Nat} :
    (∃ fault, Nesting.start.check limit derivation.tokens = .error fault) ↔
      limit < derivation.nesting := by
  constructor
  · rintro ⟨fault, failed⟩
    cases derivation.measured (.start .expression) (Nat.zero_le limit) with
    | allowed allowed => cases failed.symm.trans allowed
    | refused encloses opens refused allowed tooDeep =>
        have within := encloses.count_add_nesting_le
        have opened := Derivation.nesting_pos_of_opener opens
        have nothing : Nesting.start.depth = 0 := rfl
        omega
  · intro deep
    cases derivation.measured (.start .expression) (Nat.zero_le limit) with
    | allowed allowed low =>
        have nothing : Nesting.start.depth = 0 := rfl
        omega
    | refused encloses opens refused allowed tooDeep => exact ⟨_, refused⟩

/-- The pass measures exactly how deep factors are enclosed: it refuses a stream of the language
when a factor is inside more signs and parentheses than the limit, and stops at the first one of
them that goes too deep. In front of each factor its count is that of the enclosing ones, so those
that are complete do not count any more. -/
theorem checkNesting_measures_enclosures (spans : derivation.Spans tokens) (limit : Nat) :
    ((∃ fault, checkNesting tokens limit = .error fault) ↔ limit < derivation.nesting) ∧
      (limit < derivation.nesting ↔
        ∃ factor front count, Derivation.Encloses factor derivation front count ∧ limit < count) ∧
      (∀ fault, checkNesting tokens limit = .error fault →
        ∃ factor front count opener, Derivation.Encloses factor derivation front count ∧
          factor.opener? = some opener ∧ limit < count + 1 ∧
          fault = .syntactic .tooDeep opener.position ∧
          ∀ otherFactor otherFront otherCount otherOpener,
            Derivation.Encloses otherFactor derivation otherFront otherCount →
            otherFactor.opener? = some otherOpener → otherFront.length < front.length →
            otherCount + 1 ≤ limit) ∧
      ∀ factor front count, Derivation.Encloses factor derivation front count →
        front ++ factor.tokens <+: tokens ∧ (Nesting.start.after front).depth = count := by
  rw [spans.checkNesting_eq]
  refine ⟨Derivation.exists_error_iff, Derivation.lt_nesting_iff, ?_, ?_⟩
  · intro fault failed
    cases derivation.measured (.start .expression) (Nat.zero_le limit) with
    | allowed allowed => cases failed.symm.trans allowed
    | @refused factor front count opener encloses opens refused allowed tooDeep =>
        obtain rfl := Except.error.inj (failed.symm.trans refused)
        have begins := (List.prefix_append _ _).trans encloses.begins
        refine ⟨factor, front, count, opener, encloses, opens, ?_, rfl, ?_⟩
        · exact (Nat.zero_add count) ▸ tooDeep
        · intro otherFactor otherFront otherCount otherOpener otherEncloses otherOpens before
          exact otherEncloses.shallow otherOpens begins allowed before
  · intro factor front count encloses
    obtain ⟨last, -, rfl⟩ := spans
    refine ⟨encloses.begins.trans (List.prefix_append _ _), ?_⟩
    exact (encloses.arrives (.start .expression)).1.trans (Nat.zero_add count)

/-- The derivation of `-(-1)+2`. -/
def negatedGroup : Derivation .expression :=
  .sum (.alone (.single (.signed ⟨.operator, "-", 0⟩ ⟨rfl, .inr rfl⟩
      (.group ⟨.leftParenthesis, "(", 1⟩ ⟨.rightParenthesis, ")", 4⟩ ⟨rfl, rfl⟩ ⟨rfl, rfl⟩
        (.alone (.single (.signed ⟨.operator, "-", 2⟩ ⟨rfl, .inr rfl⟩
          (.numeral ⟨.number, "1", 3⟩
            ⟨rfl, .whole (by simp : ['1'] ≠ []) (by simp [Text.isAsciiDigit])⟩))))))))
    ⟨.operator, "+", 5⟩ ⟨rfl, .inl rfl⟩
    (.single (.numeral ⟨.number, "2", 6⟩
      ⟨rfl, .whole (by simp : ['2'] ≠ []) (by simp [Text.isAsciiDigit])⟩))

theorem negatedGroup_is_too_deep :
    ∃ tokens, negatedGroup.Spans tokens ∧
      checkNesting tokens (2 : Nat) = .error (.syntactic .tooDeep 2) ∧
      (∃ factor front count, Derivation.Encloses factor negatedGroup front count ∧ 2 < count) ∧
      ∃ factor front count opener, Derivation.Encloses factor negatedGroup front count ∧
        factor.opener? = some opener ∧ opener.position = 2 ∧ 2 < count + 1 := by
  have spans : negatedGroup.Spans (negatedGroup.tokens ++ [⟨.endOfInput, "", 7⟩]) :=
    ⟨_, rfl, rfl⟩
  have refused : checkNesting (negatedGroup.tokens ++ [⟨.endOfInput, "", 7⟩]) (2 : Nat) =
      .error (.syntactic .tooDeep 2) := by decide
  obtain ⟨refuses, deep, stops, -⟩ := checkNesting_measures_enclosures spans 2
  obtain ⟨factor, front, count, opener, encloses, opens, tooDeep, shape, -⟩ := stops _ refused
  refine ⟨_, spans, refused, deep.mp (refuses.mp ⟨_, refused⟩), ?_⟩
  exact ⟨factor, front, count, opener, encloses, opens, (Fault.syntactic.inj shape).2.symm, tooDeep⟩

end Reckon
