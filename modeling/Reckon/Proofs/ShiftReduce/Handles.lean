import Reckon.Proofs.ShiftReduce.Marks
import Reckon.Proofs.ShiftReduce.SententialForms

/-!
# The table selects the handle

The symbols on the stack and those of the tokens that are still to be read make one form. A shift
leaves the form as it is and a fold undoes a rightmost step, so on a stream of the language, where
every state is on the way to a lone expression, the form is always right-sentential. Of all the
rules that match the top of the stack, the one that the table selects is the only one by which a
fold leads to such a form again.
-/

set_option autoImplicit false

namespace Reckon.ShiftReduce

variable {tokens seen : List Token} {machine next last : ShiftReduce} {token : Token}

/-- The symbols of the tokens that are still to be read, in front of the end of input, with signs
told from operators by the tokens in front of them. -/
def ahead (tokens : List Token) (machine : ShiftReduce) : List Text :=
  markedSymbols (tokens.take (machine.cursor tokens)) (Token.withoutEnd machine.unread.tokens)

def form (tokens : List Token) (machine : ShiftReduce) : List Text :=
  machine.symbols ++ ahead tokens machine

theorem isTerminal_of_mem_markedSymbols {rest : List Token}
    (lexemes : ∀ token ∈ rest, token.IsLexeme) {front : List Token} {symbol : Text}
    (member : symbol ∈ markedSymbols front rest) : IsTerminal symbol := by
  induction rest generalizing front with
  | nil => cases member
  | cons token rest ih =>
      rcases List.mem_cons.mp member with rfl | inRest
      · exact (marks_markedSymbol (lexemes token (by simp)) front).ne_nonterminal
      · exact ih (fun other inRest => lexemes other (by simp [inRest])) inRest

namespace Poised

theorem ahead_eq (poised : Poised tokens machine seen) :
    ahead tokens machine = markedSymbols seen (Token.withoutEnd machine.unread.tokens) := by
  rw [ahead, poised.take_cursor]

theorem isTerminal_of_mem_ahead (poised : Poised tokens machine seen) {symbol : Text}
    (member : symbol ∈ ahead tokens machine) : IsTerminal symbol := by
  rw [poised.ahead_eq] at member
  refine isTerminal_of_mem_markedSymbols (fun token inRest => ?_) member
  exact poised.terminated.isLexeme_of_mem_withoutEnd inRest

theorem ahead_eq_cons {rest : List Token} (poised : Poised tokens machine seen)
    (unread : machine.unread.tokens = token :: rest) (notEnd : token.isEnd = false) :
    ahead tokens machine =
      markedSymbol seen token :: markedSymbols (seen ++ [token]) (Token.withoutEnd rest) := by
  rw [poised.ahead_eq, unread, Token.withoutEnd_cons_of_not notEnd, markedSymbols]

/-- A shift moves a symbol from what is ahead onto the stack. -/
theorem form_shifted {rest : List Token} (poised : Poised tokens machine seen)
    (unread : machine.unread.tokens = token :: rest) (notEnd : token.isEnd = false) :
    form tokens (machine.shifted token) = form tokens machine := by
  have read : tokens.take ((machine.shifted token).cursor tokens) = seen ++ [token] := by
    have shape : tokens = (seen ++ [token]) ++ rest := by
      rw [poised.tokens_eq, unread, List.append_assoc, List.singleton_append]
    have cursor : (machine.shifted token).cursor tokens = (seen ++ [token]).length := by
      rw [ShiftReduce.cursor, tokens_shifted, unread, List.tail_cons, shape, List.length_append]
      omega
    rw [cursor, shape, List.take_left]
  rw [form, form, poised.ahead_eq_cons unread notEnd, poised.symbols_shifted, ahead, read,
    tokens_shifted, unread, List.tail_cons, List.append_assoc, List.singleton_append]

/-- A fold undoes a rightmost step. -/
theorem step_reduced {rule : Rule} (poised : Poised tokens machine seen)
    (found : machine.ruleAt? Rule.table token = some rule) (item : Item) :
    RightmostStep (form tokens (machine.reduced rule item)) (form tokens machine) := by
  obtain ⟨below, before, after⟩ := symbols_reduced found item
  have member := (Grammar.findReduction?_matches found).1
  have same : ahead tokens (machine.reduced rule item) = ahead tokens machine := rfl
  rw [form, form, same, before, after, List.append_assoc, List.append_assoc]
  exact .expand member fun _ inAhead => poised.isTerminal_of_mem_ahead inAhead

theorem isRightSentential_of_turned (poised : Poised tokens machine seen)
    (turned : Turned Rule.table machine next)
    (sentential : IsRightSentential (form tokens next)) :
    IsRightSentential (form tokens machine) := by
  cases turned with
  | reduced _ _ found _ => exact sentential.tail (poised.step_reduced found _)
  | shifted unread _ _ notEnd =>
      rw [poised.form_shifted unread notEnd] at sentential
      exact sentential

theorem isRightSentential_of_reaches {turns : Nat} (poised : ∃ seen, Poised tokens machine seen)
    (reaches : Reaches Rule.table turns machine last)
    (sentential : IsRightSentential (form tokens last)) :
    IsRightSentential (form tokens machine) := by
  -- Backwards from the last machine: a shift keeps the form, and a fold undoes one step more.
  induction reaches with
  | refl => exact sentential
  | turn turned _ ih =>
      obtain ⟨seen, poised⟩ := poised
      exact poised.isRightSentential_of_turned turned (ih (poised.turned turned) sentential)

end Poised

theorem Turned.of_unread {rules : List Rule} {rest : List Token}
    (turned : Turned rules machine next) (unread : machine.unread.tokens = token :: rest) :
    (∃ rule item, machine.ruleAt? rules token = some rule ∧ next = machine.reduced rule item) ∨
      (machine.ruleAt? rules token = none ∧ token.isEnd = false ∧
        next = machine.shifted token) := by
  cases turned with
  | reduced unreadHere _ found _ =>
      obtain ⟨rfl, rfl⟩ := List.cons.inj (unread.symm.trans unreadHere)
      exact .inl ⟨_, _, found, rfl⟩
  | shifted unreadHere _ noRule notEnd =>
      obtain ⟨rfl, rfl⟩ := List.cons.inj (unread.symm.trans unreadHere)
      exact .inr ⟨noRule, notEnd, rfl⟩

/-- A machine that goes to where no turn goes on comes there by every way. -/
theorem Reaches.goes_on {rules : List Rule} {turns more : Nat} {first second last : ShiftReduce}
    (reaches : Reaches rules turns first second) (other : Reaches rules more first last)
    (final : ∀ next, ¬ Turned rules last next) : ∃ left, Reaches rules left second last := by
  induction reaches generalizing more with
  | refl => exact ⟨more, other⟩
  | turn turned _ ih =>
      cases other with
      | refl => exact absurd turned (final _)
      | turn otherTurned others =>
          cases (turned_iff.mpr turned).symm.trans (turned_iff.mpr otherTurned)
          exact ih others

/-- Only the end of input is left, and the stack is a lone expression that the stream means. -/
structure IsComplete (tokens : List Token) (machine : ShiftReduce) : Prop where
  unread : ∃ last : Token, machine.unread.tokens = [last] ∧ last.isEnd = true
  lone : ∃ tree, machine.stack = [⟨"E", .node tree⟩] ∧ Means tokens tree

namespace IsComplete

theorem accepts (complete : IsComplete tokens machine) :
    ∃ tree, Means tokens tree ∧ turn Rule.table machine = .ok (some tree) machine.accepted := by
  obtain ⟨last, unread, isLast⟩ := complete.unread
  obtain ⟨tree, single, means⟩ := complete.lone
  exact ⟨tree, means, turn_of_accepting unread single isLast⟩

theorem not_turned (complete : IsComplete tokens machine) : ¬ Turned Rule.table machine next := by
  intro turned
  obtain ⟨tree, -, accepts⟩ := complete.accepts
  cases accepts.symm.trans (turned_iff.mpr turned)

theorem ruleAt?_eq_none (complete : IsComplete tokens machine) :
    machine.ruleAt? Rule.table token = none := by
  obtain ⟨tree, single, -⟩ := complete.lone
  rw [ruleAt?, single]
  exact Grammar.findReduction?_expression

theorem form_eq (complete : IsComplete tokens machine) : form tokens machine = ["E"] := by
  obtain ⟨last, unread, isLast⟩ := complete.unread
  obtain ⟨tree, single, -⟩ := complete.lone
  have nothing : ahead tokens machine = [] := by
    simp [ahead, unread, Token.withoutEnd, isLast, markedSymbols]
  rw [form, nothing, symbols, single]
  rfl

end IsComplete

/-- A machine that is on its way to the end of a stream. -/
structure Completes (tokens : List Token) (machine : ShiftReduce) : Prop where
  poised : ∃ seen, Poised tokens machine seen
  reaches : ∃ turns last, Reaches Rule.table turns machine last ∧ IsComplete tokens last

namespace Completes

theorem start (generated : Generated tokens)
    (finite : ∀ token ∈ tokens, token.isUnbounded = false) (log : StepLog) :
    Completes tokens (.start tokens log) := by
  obtain ⟨derivation, spans⟩ := generated
  refine ⟨⟨[], .start spans.wellFormed.terminated log⟩, ?_⟩
  have outcome : derivation.outcome = .ok derivation.tree := by
    have bounded : Derivation.checkNumerals derivation.tokens = .ok () := by
      obtain ⟨last, -, rfl⟩ := spans
      exact Derivation.checkNumerals_eq_ok_iff.mpr fun token member =>
        finite token (List.mem_append_left _ member)
    rw [derivation.outcome_eq, bounded]
    rfl
  obtain ⟨last, isLast, comes⟩ := comes_start spans log
  rw [outcome] at comes
  obtain ⟨final, reaches, single, unread, -⟩ := comes
  exact ⟨_, final, reaches, ⟨last, unread, Token.isEnd_iff.mpr isLast⟩,
    _, single, derivation, spans, outcome⟩

theorem of_reaches {turns : Nat} (completes : Completes tokens machine)
    (reaches : Reaches Rule.table turns machine next) : Completes tokens next := by
  obtain ⟨more, last, reachesLast, complete⟩ := completes.reaches
  obtain ⟨left, remaining⟩ := reaches.goes_on reachesLast fun _ => complete.not_turned
  exact ⟨Poised.reaches completes.poised reaches, left, last, remaining, complete⟩

theorem isRightSentential (completes : Completes tokens machine) :
    IsRightSentential (form tokens machine) := by
  obtain ⟨turns, last, reaches, complete⟩ := completes.reaches
  refine Poised.isRightSentential_of_reaches completes.poised reaches ?_
  rw [complete.form_eq]
  exact .refl

theorem complete_or_turned (completes : Completes tokens machine) :
    IsComplete tokens machine ∨ ∃ next, Turned Rule.table machine next ∧ Completes tokens next := by
  obtain ⟨turns, last, reaches, complete⟩ := completes.reaches
  cases reaches with
  | refl => exact .inl complete
  | turn turned _ => exact .inr ⟨_, turned, completes.of_reaches (.single turned)⟩

end Completes

/-- No sign may follow a nonterminal. -/
theorem markedSymbol_of_follows (token : Token) (front : List Token) {nonterminal : Nonterminal}
    (follows : markedSymbol front token ∈ followers nonterminal) :
    markedSymbol front token = token.symbol := by
  obtain ⟨top?, same⟩ := exists_shiftSymbol_eq front token
  rw [← same] at follows ⊢
  rcases Grammar.shiftSymbol_cases token top? with plain | ⟨-, marked⟩ | ⟨-, marked⟩
  · exact plain
  · rw [marked] at follows
    exact absurd follows (by cases nonterminal <;> decide)
  · rw [marked] at follows
    exact absurd follows (by cases nonterminal <;> decide)

/-- Where a fold leads to a right-sentential form, the next token may follow what it makes. -/
theorem Poised.canReduce_of_isChain {rule : Rule} {below : List Text} {rest : List Token}
    (poised : Poised tokens machine seen) (unread : machine.unread.tokens = token :: rest)
    (member : rule ∈ Rule.table)
    (chain : (below ++ rule.lhs :: ahead tokens machine).IsChain Adjacent) :
    Grammar.canReduce rule.lhs token.symbol = true := by
  obtain ⟨nonterminal, fits⟩ := exists_fitsFor member
  rw [fits.lhs_eq, canReduce_symbol_iff]
  cases isLast : token.isEnd with
  | true =>
      rw [Token.symbol_of_kind_endOfInput (Token.isEnd_iff.mp isLast)]
      exact List.mem_cons_self
  | false =>
      rw [poised.ahead_eq_cons unread isLast] at chain
      obtain ⟨-, ahead, -⟩ := List.isChain_append.mp chain
      have follows := ((List.isChain_cons_cons.mp ahead).1).follower nonterminal fits.lhs_eq
      rw [← markedSymbol_of_follows token seen follows]
      exact follows

/-- What the table selects in front of a token, on a stream of the language. -/
structure PicksHandle (tokens : List Token) (machine : ShiftReduce) (token : Token) : Prop where
  /-- Of the rules that match the top of the stack the selected one is the handle. -/
  handle : ∀ rule ∈ Rule.table, ∀ below, machine.symbols = below ++ rule.rhs →
    (IsRightSentential (below ++ rule.lhs :: ahead tokens machine) ↔
      machine.ruleAt? Rule.table token = some rule)
  /-- What is selected can be folded. -/
  folds : ∀ rule, machine.ruleAt? Rule.table token = some rule →
    ∃ item, Turned Rule.table machine (machine.reduced rule item)
  /-- Where no rule is selected, the token is shifted or the stream has been parsed. -/
  waits : machine.ruleAt? Rule.table token = none →
    (token.isEnd = false ∧ Turned Rule.table machine (machine.shifted token)) ∨
      IsComplete tokens machine

namespace Completes

theorem isRightSentential_of_ruleAt {rule : Rule} {below : List Text}
    (completes : Completes tokens machine) (top : machine.symbols = below ++ rule.rhs)
    {rest : List Token} (unread : machine.unread.tokens = token :: rest)
    (found : machine.ruleAt? Rule.table token = some rule) :
    (∃ item, Turned Rule.table machine (machine.reduced rule item)) ∧
      IsRightSentential (below ++ rule.lhs :: ahead tokens machine) := by
  rcases completes.complete_or_turned with complete | ⟨next, turned, completesNext⟩
  · rw [complete.ruleAt?_eq_none] at found
    cases found
  · rcases turned.of_unread unread with ⟨selected, item, foundHere, rfl⟩ | ⟨noRule, -, -⟩
    · obtain rfl := Option.some.inj (found.symm.trans foundHere)
      obtain ⟨under, before, after⟩ := symbols_reduced found item
      obtain rfl := List.append_cancel_right (top.symm.trans before)
      have sentential := completesNext.isRightSentential
      have same : ahead tokens (machine.reduced rule item) = ahead tokens machine := rfl
      rw [form, after, same, List.append_assoc, List.singleton_append] at sentential
      exact ⟨⟨item, turned⟩, sentential⟩
    · cases found.symm.trans noRule

theorem picksHandle {rest : List Token} (completes : Completes tokens machine)
    (unread : machine.unread.tokens = token :: rest) : PicksHandle tokens machine token where
  handle rule member below top := by
    constructor
    · intro sentential
      -- Neighbours alone tell the handle, so what the machine does next is not looked at here.
      obtain ⟨seen, poised⟩ := completes.poised
      have chain := sentential.isChain
      have permitted := poised.canReduce_of_isChain unread member chain
      have stack : machine.stack.map Frame.symbol = rule.rhs.reverse ++ below.reverse := by
        rw [← List.reverse_append, ← top, symbols, symbolsOf, List.reverse_reverse]
      rw [ruleAt?, stack]
      exact findReduction?_of_isChain member chain permitted
    · intro found
      exact (completes.isRightSentential_of_ruleAt top unread found).2
  folds rule found := by
    obtain ⟨below, top, -⟩ := symbols_reduced found (.token token)
    exact (completes.isRightSentential_of_ruleAt top unread found).1
  waits noRule := by
    rcases completes.complete_or_turned with complete | ⟨next, turned, -⟩
    · exact .inr complete
    · rcases turned.of_unread unread with ⟨rule, item, found, -⟩ | ⟨-, notEnd, rfl⟩
      · cases noRule.symm.trans found
      · exact .inl ⟨notEnd, turned⟩

/-- However a run ends that starts on the way, it leaves a right-sentential form. -/
theorem isRightSentential_stateOf_run (completes : Completes tokens machine) (cap : Nat) :
    IsRightSentential (form tokens (stateOf (run Rule.table cap machine))) := by
  cases outcome : run Rule.table cap machine with
  | ok tree after =>
      obtain ⟨turns, last, -, reaches, accepts⟩ := exists_of_run_ok outcome
      obtain ⟨_, _, _, _, _, rfl⟩ := exists_of_turn_accepts accepts
      exact (completes.of_reaches reaches).isRightSentential
  | error fault after =>
      obtain ⟨turns, last, reaches, ⟨-, fails⟩ | ⟨-, stopped⟩⟩ := exists_of_run_error outcome
      · rcases (completes.of_reaches reaches).complete_or_turned with complete | ⟨next, turned, -⟩
        · obtain ⟨tree, -, accepts⟩ := complete.accepts
          cases accepts.symm.trans fails
        · cases (turned_iff.mpr turned).symm.trans fails
      · have same := stateOf_run_zero Rule.table last
        rw [stopped] at same
        rw [same]
        exact (completes.of_reaches reaches).isRightSentential

end Completes

/-- The table always picks the handle. On a stream of the language whose numerals are finite, the
symbols of the stack with those of the unread tokens are a right-sentential form in every state of a
run. If some rules match the top of the stack, folding by one of them leads to such a form again
exactly if it is the rule that the table selects; if none is selected, the next token is shifted, or
the stream has been parsed. -/
theorem table_picks_the_handle (generated : Generated tokens)
    (finite : ∀ token ∈ tokens, token.isUnbounded = false) (log : StepLog) :
    (∀ turns machine, Reaches Rule.table turns (start tokens log) machine →
      IsRightSentential (form tokens machine) ∧
        ∃ token rest, machine.unread.tokens = token :: rest ∧ PicksHandle tokens machine token) ∧
      ∀ cap, IsRightSentential (form tokens (stateOf (run Rule.table cap (start tokens log)))) := by
  have starts := Completes.start generated finite log
  refine ⟨?_, starts.isRightSentential_stateOf_run⟩
  intro turns machine reaches
  have completes := starts.of_reaches reaches
  obtain ⟨seen, poised⟩ := completes.poised
  obtain ⟨token, rest, unread⟩ := List.exists_cons_of_ne_nil poised.terminated.ne_nil
  exact ⟨completes.isRightSentential, token, rest, unread, completes.picksHandle unread⟩

/-- The derivation of `2 * -3`. -/
def timesNegative : Derivation .expression :=
  .alone (.product
    (.single (.numeral ⟨.number, "2", 0⟩ (Token.isNumeral_of_digit '2' rfl 0)))
    ⟨.operator, "*", 2⟩ ⟨rfl, .inl rfl⟩
    (.signed ⟨.operator, "-", 4⟩ ⟨rfl, .inr rfl⟩
      (.numeral ⟨.number, "3", 5⟩ (Token.isNumeral_of_digit '3' rfl 5))))

def timesNegativeTokens : List Token :=
  timesNegative.tokens ++ [⟨.endOfInput, "", 6⟩]

theorem timesNegative_generated : Generated timesNegativeTokens :=
  ⟨timesNegative, _, rfl, rfl⟩

/-- Two rules match a factor behind a sign, and only the one that takes the sign is right. -/
theorem timesNegative_handle :
    ∃ machine, Reaches Rule.table 7 (start timesNegativeTokens .empty) machine ∧
      machine.symbols = (["T", "*", "u-", "F"] : List Text) ∧
      IsRightSentential (["T", "*", "u-", "F"] : List Text) ∧
      IsRightSentential (["T", "*", "F"] : List Text) ∧
      ¬ IsRightSentential (["T", "*", "u-", "T"] : List Text) := by
  have seen : atCap (run Rule.table 7 (start timesNegativeTokens .empty)) =
      some ((["T", "*", "u-", "F"] : List Text), [⟨.endOfInput, "", 6⟩]) := by decide +kernel
  obtain ⟨machine, reaches, symbols, unread⟩ := exists_reaches_of_atCap seen
  have nothing : ahead timesNegativeTokens machine = [] := by
    rw [ahead, unread]
    rfl
  obtain ⟨sentential, token, rest, next, picks⟩ := (table_picks_the_handle
    timesNegative_generated (by decide +kernel) .empty).1 7 machine reaches
  obtain ⟨rfl, rfl⟩ := List.cons.inj (next.symm.trans unread)
  have found : machine.ruleAt? Rule.table ⟨.endOfInput, "", 6⟩ =
      some ⟨"F", ["u-", "F"], .unary "-"⟩ := by
    have stack : machine.stack.map Frame.symbol = (["F", "u-", "*", "T"] : List Text) :=
      List.reverse_injective symbols
    rw [ruleAt?, stack]
    exact Grammar.findReduction?_signed (.inr rfl) rfl
  have right := picks.handle ⟨"F", ["u-", "F"], .unary "-"⟩ (by simp [Rule.table]) ["T", "*"]
    symbols
  have wrong := picks.handle ⟨"T", ["F"], .pass⟩ (by simp [Rule.table]) ["T", "*", "u-"] symbols
  rw [nothing] at right wrong
  rw [form, nothing, symbols] at sentential
  refine ⟨machine, reaches, symbols, sentential, right.mpr found, fun promoted => ?_⟩
  cases found.symm.trans (wrong.mp promoted)

end Reckon.ShiftReduce
