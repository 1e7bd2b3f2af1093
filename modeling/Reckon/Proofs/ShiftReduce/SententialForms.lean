import Mathlib.Logic.Relation
import Reckon.Proofs.ShiftReduce.Levels

/-!
# Right-sentential forms

The rules of the table as a grammar on rows of symbols, whose last nonterminal is always replaced
first. In a form that comes of an expression this way, every nonterminal stands between symbols that
the grammar allows next to it. That alone tells where the table would fold: if a fold leads to such
a form, its rule is the one that the table selects.
-/

set_option autoImplicit false

namespace Reckon.ShiftReduce

open Grammar (canReduce findReduction?)

def IsTerminal (symbol : Text) : Prop :=
  ∀ nonterminal : Nonterminal, symbol ≠ nonterminal.symbol

/-- A step of a rightmost derivation: the last nonterminal of a form gives way to the right-hand
side of one of its rules. -/
inductive RightmostStep : List Text → List Text → Prop where
  | expand {rule : Rule} {front behind : List Text} :
      rule ∈ Rule.table → (∀ symbol ∈ behind, IsTerminal symbol) →
      RightmostStep (front ++ rule.lhs :: behind) (front ++ (rule.rhs ++ behind))

/-- A form that an expression comes to by rightmost steps. -/
def IsRightSentential (form : List Text) : Prop :=
  Relation.ReflTransGen RightmostStep ["E"] form

/-- The symbols in front of which a nonterminal may be made. -/
def followers (nonterminal : Nonterminal) : List Text :=
  endMark :: (Grammar.follow.lookup nonterminal.symbol).getD []

theorem canReduce_symbol_iff {nonterminal : Nonterminal} {lookahead : Text} :
    canReduce nonterminal.symbol lookahead = true ↔ lookahead ∈ followers nonterminal := by
  cases nonterminal with
  | expression => exact (canReduce_iff rfl).trans List.mem_cons.symm
  | term => exact (canReduce_iff rfl).trans List.mem_cons.symm
  | factor => exact (canReduce_iff rfl).trans List.mem_cons.symm

/-- One symbol may stand in front of another: a nonterminal has its neighbours among those that the
grammar allows. -/
structure Adjacent (left right : Text) : Prop where
  context : ∀ nonterminal : Nonterminal, right = nonterminal.symbol → left ∈ contexts nonterminal
  follower : ∀ nonterminal : Nonterminal, left = nonterminal.symbol → right ∈ followers nonterminal

instance (left right : Text) : Decidable (Adjacent left right) :=
  decidable_of_iff
    ((∀ nonterminal ∈ [Nonterminal.expression, .term, .factor],
        right = nonterminal.symbol → left ∈ contexts nonterminal) ∧
      ∀ nonterminal ∈ [Nonterminal.expression, .term, .factor],
        left = nonterminal.symbol → right ∈ followers nonterminal) <| by
    have all (nonterminal : Nonterminal) :
        nonterminal ∈ [Nonterminal.expression, .term, .factor] := by
      cases nonterminal <;> simp
    exact ⟨fun ⟨contexts, followers⟩ =>
        ⟨fun nonterminal => contexts nonterminal (all nonterminal),
          fun nonterminal => followers nonterminal (all nonterminal)⟩,
      fun adjacent => ⟨fun nonterminal _ => adjacent.context nonterminal,
        fun nonterminal _ => adjacent.follower nonterminal⟩⟩

/-- The right-hand side of a rule fits wherever its left-hand side does. -/
structure FitsFor (rule : Rule) (nonterminal : Nonterminal) : Prop where
  lhs_eq : rule.lhs = nonterminal.symbol
  inside : rule.rhs.IsChain Adjacent
  first : ∀ symbol ∈ rule.rhs.head?, ∀ context ∈ contexts nonterminal, Adjacent context symbol
  last : ∀ symbol ∈ rule.rhs.getLast?, ∀ follower ∈ followers nonterminal, Adjacent symbol follower

theorem exists_fitsFor {rule : Rule} (member : rule ∈ Rule.table) :
    ∃ nonterminal, FitsFor rule nonterminal := by
  simp only [Rule.table, List.mem_cons, List.not_mem_nil, or_false] at member
  rcases member with rfl | rfl | rfl | rfl | rfl | rfl | rfl | rfl | rfl | rfl
  · exact ⟨.factor, rfl, by decide +kernel, by decide +kernel, by decide +kernel⟩
  · exact ⟨.factor, rfl, by decide +kernel, by decide +kernel, by decide +kernel⟩
  · exact ⟨.factor, rfl, by decide +kernel, by decide +kernel, by decide +kernel⟩
  · exact ⟨.factor, rfl, by decide +kernel, by decide +kernel, by decide +kernel⟩
  · exact ⟨.term, rfl, by decide +kernel, by decide +kernel, by decide +kernel⟩
  · exact ⟨.term, rfl, by decide +kernel, by decide +kernel, by decide +kernel⟩
  · exact ⟨.term, rfl, by decide +kernel, by decide +kernel, by decide +kernel⟩
  · exact ⟨.expression, rfl, by decide +kernel, by decide +kernel, by decide +kernel⟩
  · exact ⟨.expression, rfl, by decide +kernel, by decide +kernel, by decide +kernel⟩
  · exact ⟨.expression, rfl, by decide +kernel, by decide +kernel, by decide +kernel⟩

theorem isChain_of_step {form next : List Text} (chain : form.IsChain Adjacent)
    (step : RightmostStep form next) : next.IsChain Adjacent := by
  cases step with
  | @expand rule front behind member _ =>
      obtain ⟨nonterminal, lhs_eq, inside, first, last⟩ := exists_fitsFor member
      obtain ⟨frontChain, restChain, join⟩ := List.isChain_append.mp chain
      obtain ⟨next, behindChain⟩ := List.isChain_cons.mp restChain
      have nonempty := Grammar.table_rhs_ne_nil rule member
      refine List.isChain_append.mpr ⟨frontChain, List.isChain_append.mpr
        ⟨inside, behindChain, ?_⟩, ?_⟩
      · intro symbol isLast follower isNext
        exact last symbol isLast follower ((next follower isNext).follower nonterminal lhs_eq)
      · intro context isLast symbol isFirst
        rw [List.head?_append_of_ne_nil _ nonempty] at isFirst
        have before := join context isLast rule.lhs rfl
        exact first symbol isFirst context (before.context nonterminal lhs_eq)

theorem IsRightSentential.isChain {form : List Text} (sentential : IsRightSentential form) :
    form.IsChain Adjacent := by
  induction sentential with
  | refl => exact .singleton _
  | tail _ step ih => exact isChain_of_step ih step

/-- Where folding a stack leads to a form in which every nonterminal stands between symbols that may
be next to it, the table selects the rule of the fold. -/
theorem findReduction?_of_isChain {rule : Rule} (member : rule ∈ Rule.table)
    {below ahead : List Text} (chain : (below ++ rule.lhs :: ahead).IsChain Adjacent)
    {lookahead : Text} (permitted : canReduce rule.lhs lookahead = true) :
    findReduction? Rule.table (rule.rhs.reverse ++ below.reverse) lookahead = some rule := by
  have wants : ∀ nonterminal : Nonterminal, rule.lhs = nonterminal.symbol →
      Wants nonterminal below.reverse := by
    intro nonterminal lhs_eq context isTop
    rw [List.head?_reverse] at isTop
    obtain ⟨-, -, join⟩ := List.isChain_append.mp chain
    exact (join context isTop rule.lhs rfl).context nonterminal lhs_eq
  simp only [Rule.table, List.mem_cons, List.not_mem_nil, or_false] at member
  rcases member with rfl | rfl | rfl | rfl | rfl | rfl | rfl | rfl | rfl | rfl
  · exact Grammar.findReduction?_numeral permitted
  · exact Grammar.findReduction?_group permitted
  · exact Grammar.findReduction?_signed (.inl rfl) permitted
  · exact Grammar.findReduction?_signed (.inr rfl) permitted
  · exact Grammar.findReduction?_product (.inl rfl) permitted
  · exact Grammar.findReduction?_product (.inr rfl) permitted
  · exact Level.products.selects_only (wants .term rfl) permitted
  · exact Grammar.findReduction?_sum (.inl rfl) permitted
  · exact Grammar.findReduction?_sum (.inr rfl) permitted
  · exact Level.sums.selects_only (wants .expression rfl) permitted

end Reckon.ShiftReduce
