import Reckon.Proofs.ShiftReduce.Selection

/-!
# How many turns the machine takes

Every turn with the table of the grammar uses up some of a potential: a token that is still to be
read is worth four, and a symbol on the stack is worth less the further it has been folded. So a
stream bounds the turns of the machine, whatever its tokens are, and a cap that the bound does not
exceed is never reached.
-/

set_option autoImplicit false

namespace Reckon.ShiftReduce

/-- What a symbol on the stack is worth. -/
def weight (symbol : Text) : Nat :=
  if symbol ∈ (["NUMBER", ")"] : List Text) then 3
  else if symbol = "F" then 2
  else if symbol ∈ (["T", "u+", "u-"] : List Text) then 1
  else 0

def load : List Text → Nat
  | [] => 0
  | symbol :: rest => weight symbol + load rest

/-- What a machine may still spend. -/
def potential (machine : ShiftReduce) : Nat :=
  4 * machine.unread.tokens.length + load (machine.stack.map Frame.symbol)

variable {machine next : ShiftReduce}

theorem weight_le (symbol : Text) : weight symbol ≤ 3 := by
  unfold weight
  split_ifs <;> omega

theorem load_append (left right : List Text) : load (left ++ right) = load left + load right := by
  induction left with
  | nil => simp [load]
  | cons symbol rest ih =>
      rw [List.cons_append, load, load, ih]
      omega

theorem weight_lhs_lt : ∀ rule ∈ Rule.table, weight rule.lhs < load rule.rhs.reverse := by
  decide

theorem load_eq {stack : List Text} {rule : Rule} (top : rule.rhs.reverse <+: stack) :
    load stack = load rule.rhs.reverse + load (stack.drop rule.rhs.length) := by
  obtain ⟨below, rfl⟩ := top
  have bottom : (rule.rhs.reverse ++ below).drop rule.rhs.length = below := by
    rw [← List.length_reverse, List.drop_left]
  rw [bottom, load_append]

/-- Folding by a rule of the table makes the stack lighter. -/
theorem load_reduced_lt {token : Token} {rule : Rule}
    (found : machine.ruleAt? Rule.table token = some rule) (item : Item) :
    load ((machine.reduced rule item).stack.map Frame.symbol) <
      load (machine.stack.map Frame.symbol) := by
  obtain ⟨member, top, -⟩ := Grammar.findReduction?_spec found
  have wide : rule.rhs.length ≠ 0 := by simpa using Grammar.table_rhs_ne_nil rule member
  have lighter := weight_lhs_lt rule member
  have split := load_eq top
  rw [← List.map_drop] at split
  simp only [stack_reduced, Grammar.uncovered_eq_drop wide, List.map_cons, load]
  omega

/-- A token that is shifted weighs three at most. -/
theorem load_shifted_le (machine : ShiftReduce) (token : Token) :
    load ((machine.shifted token).stack.map Frame.symbol) ≤
      load (machine.stack.map Frame.symbol) + 3 := by
  have light := weight_le (Grammar.shiftSymbol token (machine.stack.head?.map Frame.symbol))
  simp only [stack_shifted, List.map_cons, load]
  omega

/-- Every turn that neither accepts nor fails spends something. -/
theorem Turned.potential_lt (turned : Turned Rule.table machine next) :
    next.potential < machine.potential := by
  cases turned with
  | @reduced token rest rule item unread goesOn found made =>
      have lighter := load_reduced_lt found item
      simp only [potential, unread_reduced]
      omega
  | @shifted token rest unread goesOn noRule notLast =>
      -- A token worth four becomes a symbol worth three at most.
      have heavier := load_shifted_le machine token
      simp only [potential, tokens_shifted, unread, List.tail_cons, List.length_cons]
      omega

theorem Reaches.add_potential_le {turns : Nat} (reaches : Reaches Rule.table turns machine next) :
    turns + next.potential ≤ machine.potential := by
  induction reaches with
  | refl => omega
  | turn turned _ ih =>
      have spent := turned.potential_lt
      omega

/-- A computation does not fail because a cap was reached. -/
def SparesCap {α : Type} (computation : Except Fault α) : Prop :=
  ∀ position, computation ≠ .error (.syntactic .capReached position)

namespace SparesCap

theorem bind {α β : Type} {computation : Except Fault α} {rest : α → Except Fault β}
    (first : SparesCap computation) (second : ∀ value, SparesCap (rest value)) :
    SparesCap (computation >>= rest) := by
  intro position failed
  rcases except_bind_error failed with refused | ⟨value, -, refused⟩
  · exact first position refused
  · exact second value position refused

theorem pure {α : Type} (value : α) : SparesCap (.ok value : Except Fault α) := nofun

theorem number (token : Token) : SparesCap token.number := by
  intro position failed
  unfold Token.number at failed
  split at failed
  · cases failed
  · split at failed <;> cases failed

theorem tree (item : Item) : SparesCap item.tree := by
  cases item <;> exact nofun

theorem child (children : List Item) (place : Nat) : SparesCap (Action.child children place) := by
  intro position failed
  unfold Action.child at failed
  split at failed <;> cases failed

theorem apply {action : Action} (builds : Grammar.BuildsTrees action) (children : List Item) :
    SparesCap (action.apply children) := by
  cases builds with
  | number =>
      refine (child children 0).bind fun item => ?_
      cases item with
      | token token => exact (number token).bind fun made => pure _
      | node made => exact pure _
  | group => exact (child children 1).bind fun item => (tree item).bind fun _ => pure _
  | pass => exact (child children 0).bind fun item => (tree item).bind fun _ => pure _
  | unary => exact (child children 1).bind fun item => (tree item).bind fun _ => pure _
  | binary =>
      refine (child children 0).bind fun left => (tree left).bind fun _ => ?_
      exact (child children 2).bind fun right => (tree right).bind fun _ => pure _

end SparesCap

/-- A turn that fails in the words of a reached cap has them from the action of a rule. -/
theorem exists_of_turn_capReached {rules : List Rule} {position : Int}
    (failed : turn rules machine = .error (.syntactic .capReached position) next) :
    ∃ rule ∈ rules, ∃ children,
      rule.action.apply children = .error (.syntactic .capReached position) := by
  have outcome := turn_outcome rules machine
  rw [failed] at outcome
  cases outcome with
  | @unmade token rest rule _ unread found made =>
      exact ⟨rule, (Grammar.findReduction?_matches found).1, _, made⟩

theorem turn_ne_capReached {position : Int} :
    turn Rule.table machine ≠ .error (.syntactic .capReached position) next := by
  intro failed
  obtain ⟨rule, member, children, made⟩ := exists_of_turn_capReached failed
  exact SparesCap.apply (Grammar.table_buildsTrees rule member) children position made

/-- A run that comes to its cap had more to spend than the cap. -/
theorem cap_lt_of_capReached {cap : Nat} {position : Int}
    (failed : run Rule.table cap machine = .error (.syntactic .capReached position) next) :
    cap + 4 ≤ machine.potential := by
  obtain ⟨turns, last, reaches, ends⟩ := exists_of_run_error failed
  rcases ends with ⟨-, refused⟩ | ⟨rfl, stopped⟩
  · exact absurd refused turn_ne_capReached
  · have spent := reaches.add_potential_le
    cases unread : last.unread.tokens with
    | nil =>
        rw [run_zero_of_nil unread] at stopped
        cases stopped
    | cons token rest =>
        have left : 4 ≤ last.potential := by
          simp only [potential, unread, List.length_cons]
          omega
        omega

@[simp] theorem potential_start (tokens : List Token) (log : StepLog) :
    (start tokens log).potential = 4 * tokens.length := rfl

/-- Whether a stream of so many tokens can be parsed in the turns that are allowed. -/
def Suffices (tokenCount : Nat) : Option Int → Prop
  | none => True
  | some cap => 4 * (tokenCount : Int) - 3 ≤ cap

theorem suffices_none (tokenCount : Nat) : Suffices tokenCount none := trivial

theorem Suffices.lt {tokenCount : Nat} {cap? : Option Int} (enough : Suffices tokenCount cap?) :
    4 * tokenCount < (cap?.getD (defaultCap tokenCount)).toNat + 4 := by
  cases cap? with
  | none =>
      simp only [Option.getD_none, defaultCap]
      omega
  | some cap =>
      change 4 * (tokenCount : Int) - 3 ≤ cap at enough
      simp only [Option.getD_some]
      omega

theorem run_ne_capReached {tokens : List Token} {log : StepLog} {cap? : Option Int}
    (enough : Suffices tokens.length cap?) {position : Int} :
    run Rule.table (cap?.getD (defaultCap tokens.length)).toNat (start tokens log) ≠
      .error (.syntactic .capReached position) next := by
  intro failed
  have spent := cap_lt_of_capReached failed
  rw [potential_start] at spent
  have room := enough.lt
  omega

end Reckon.ShiftReduce
