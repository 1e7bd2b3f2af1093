import Reckon.Parsing.Strategy
import Reckon.Proofs.Nesting

/-!
# Parsers of the language

What it means for the answer of a parser to follow the grammar: on the tokens of a derivation it is
the outcome of the derivation, a tree is only returned for a stream that the grammar generates, and
what is refused is refused for a cause that is about the source.
-/

set_option autoImplicit false

namespace Reckon

/-- The causes of defensive checks, which no parser of a well-formed stream should report. -/
def SyntaxCause.isDefensive : SyntaxCause → Bool
  | .emptySource | .misplacedEnd | .notAnExpression _ => true
  | _ => false

/-- A token of a stream is refused for a cause that is about the source. -/
def Refuses (tokens : List Token) (fault : Fault) : Prop :=
  ∃ cause, ∃ token ∈ tokens, fault = .syntactic cause token.position ∧
    cause.isDefensive = false ∧ cause ≠ .capReached

theorem Refuses.of_subset {some all : List Token} (subset : some ⊆ all) {fault : Fault}
    (refuses : Refuses some fault) : Refuses all fault := by
  obtain ⟨cause, token, member, shape⟩ := refuses
  exact ⟨cause, token, subset member, shape⟩

/-- A numeral of a stream is beyond the finite doubles. -/
def Overflows (tokens : List Token) (fault : Fault) : Prop :=
  ∃ token ∈ tokens, token.isUnbounded = true ∧
    fault = .syntactic (.unboundedNumeral token.text) token.position

theorem Overflows.refuses {tokens : List Token} {fault : Fault}
    (overflows : Overflows tokens fault) : Refuses tokens fault := by
  obtain ⟨token, member, -, rfl⟩ := overflows
  exact ⟨_, token, member, rfl, rfl, by simp⟩

theorem Token.IsNumeral.overflows {token : Token} (numeral : token.IsNumeral) {fault : Fault}
    (failed : token.number = .error fault) {tokens : List Token} (member : token ∈ tokens) :
    Overflows tokens fault := by
  rw [numeral.number_eq] at failed
  split at failed
  case isTrue unbounded =>
    cases failed
    exact ⟨token, member, unbounded, rfl⟩
  case isFalse => cases failed

theorem Grammar.Nesting.refuses_of_check {limit : Int} {nesting : Nesting} {tokens : List Token}
    {fault : Fault} (failed : nesting.check limit tokens = .error fault) :
    Refuses tokens fault := by
  induction tokens generalizing nesting with
  | nil => cases failed
  | cons token rest ih =>
      rw [check] at failed
      split at failed
      · cases failed
        exact ⟨_, token, by simp, rfl, rfl, by simp⟩
      · exact (ih failed).of_subset (List.subset_cons_self token rest)

/-- The tokens of a derivation with an end of input behind them. -/
def Derivation.Spans (derivation : Derivation .expression) (tokens : List Token) : Prop :=
  ∃ last : Token, last.kind = .endOfInput ∧ tokens = derivation.tokens ++ [last]

theorem Derivation.Spans.wellFormed {derivation : Derivation .expression} {tokens : List Token}
    (spans : derivation.Spans tokens) : WellFormed tokens := by
  obtain ⟨last, isLast, rfl⟩ := spans
  refine ⟨.append (fun _ member => isLexeme_of_mem member) (.last isLast), ?_⟩
  have nonempty := List.length_pos_iff.mpr derivation.tokens_ne_nil
  simp only [List.length_append, List.length_cons, List.length_nil]
  omega

/-- Whether the grammar generates a stream. -/
def Generated (tokens : List Token) : Prop :=
  ∃ derivation : Derivation .expression, derivation.Spans tokens

/-- A tree is the meaning of a stream. -/
def Means (tokens : List Token) (tree : Tree Text) : Prop :=
  ∃ derivation : Derivation .expression, derivation.Spans tokens ∧ derivation.outcome = .ok tree

theorem Means.generated {tokens : List Token} {tree : Tree Text} (means : Means tokens tree) :
    Generated tokens := by
  obtain ⟨derivation, spans, -⟩ := means
  exact ⟨derivation, spans⟩

/-- What a parser of the grammar may answer on a stream. -/
structure FollowsGrammar (tokens : List Token) (answer : Except Fault Parsed) : Prop where
  follows : ∀ {derivation : Derivation .expression}, derivation.Spans tokens →
    answer.map Parsed.tree =
      (Grammar.checkNesting tokens Grammar.maxNesting >>= fun _ => derivation.outcome)
  reads : ∀ {parsed : Parsed}, answer = .ok parsed → Means tokens parsed.tree
  refuses : ∀ {fault : Fault}, answer = .error fault → Refuses tokens fault

end Reckon
