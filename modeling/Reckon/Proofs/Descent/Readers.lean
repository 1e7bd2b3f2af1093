import Reckon.Proofs.Descent.Levels
import Reckon.Proofs.Operands
import Reckon.Proofs.Pairings

/-!
# Readers of the descent

Which part of the descent reads a token. An ascribed descent notes with each token that it reads the
part that has read it, and is otherwise the descent itself. The functions are only called where an
operand is wanted and only return where none is. So a plus or minus is read by the branch of a
factor for signs where an operand is wanted and by the loop of expressions elsewhere, whether or not
the stream is in the language.
-/

set_option autoImplicit false

namespace Reckon

/-- The parts of the descent that read tokens: the branches of a factor, and the loops. -/
inductive Reader where
  | sign
  | numeral
  | opening
  | closing
  | loop (whole : Nonterminal)
deriving DecidableEq

structure Reading where
  reader : Reader
  token : Token
deriving DecidableEq

/-- A plus or minus behind some tokens is read as a sign where an operand is wanted, and by the loop
of expressions elsewhere. -/
def Reading.IsRight (front : List Token) (reading : Reading) : Prop :=
  reading.token.IsAdditive →
    reading.reader = if wantsOperand front then .sign else .loop .expression

structure Ascribed where
  descent : Descent
  /-- What has been read, in the order of the stream. -/
  readings : List Reading

namespace Ascribed

abbrev Run (α : Type) := EStateM Fault Ascribed α

def start (tokens : List Token) (log : StepLog) : Ascribed :=
  ⟨Descent.start tokens log, []⟩

def unread (ascribed : Ascribed) : List Token :=
  ascribed.descent.unread.tokens

def seen (ascribed : Ascribed) : List Token :=
  ascribed.readings.map Reading.token

/-- A part of a descent that reads nothing. -/
def apart {α : Type} (run : Descent.Run α) : Run α := fun ascribed =>
  match run ascribed.descent with
  | .ok value after => .ok value { ascribed with descent := after }
  | .error fault after => .error fault { ascribed with descent := after }

def eatAs (reader : Reader) (kind : TokenKind) : Run Token := do
  let token ← apart (Descent.eat kind)
  modify fun ascribed =>
    { ascribed with readings := ascribed.readings ++ [⟨reader, token⟩] }
  return token

def chain (level : Descent.Level) (operand : Run (Tree Text)) : Nat → Tree Text → Run (Tree Text)
  | 0, left => return left
  | turns + 1, left => do
    if ← apart (Descent.atOperator level.operators) then
      let operator := (← eatAs (.loop level.whole) .operator).text
      let right ← operand
      apart (Descent.step .reduce ("Created binary operation: " ++ operator)
        (some (level.rule operator)))
      chain level operand turns (.binary operator left right)
    else return left

/-- The body of a level, around the calls for its operands. -/
def level (level : Descent.Level) (operand : Run (Tree Text)) : Run (Tree Text) := do
  apart (Descent.step .process level.opening none)
  let first ← operand
  let turns := (← get).unread.length
  chain level operand turns first

/-- The body of a factor, around the calls for what stands behind a sign or a parenthesis. -/
def factor (operand inner : Run (Tree Text)) : Run (Tree Text) := do
  let token ← apart Descent.current
  apart (Descent.step .process
    ("Processing factor: " ++ if token.text.isEmpty then endMark else token.text) none)
  if ← apart (Descent.atOperator "+-") then
    let _ ← eatAs .sign .operator
    let tree ← operand
    apart (Descent.step .reduce ("Created unary operation: " ++ token.text) none)
    return .unary token.text tree
  else
    match token.kind with
    | .number =>
      let _ ← eatAs .numeral .number
      let tree ← apart (Descent.numeral token)
      apart (Descent.step .reduce ("Created number node: " ++ Descent.shownNumber tree) none)
      return tree
    | .leftParenthesis =>
      apart (Descent.step .process "Processing parenthesized expression" none)
      let _ ← eatAs .opening .leftParenthesis
      let tree ← inner
      let _ ← eatAs .closing .rightParenthesis
      apart (Descent.step .reduce "Completed parenthesized expression" none)
      return tree
    | .endOfInput => throw (.syntactic .missingOperand token.position)
    | kind => throw (.syntactic (.strayToken kind token.text) token.position)

def parser : Nat → Nonterminal → Run (Tree Text)
  | 0, _ => throw .callDepth
  | calls + 1, .expression => level .sums (parser calls .term)
  | calls + 1, .term => level .products (parser calls .factor)
  | calls + 1, .factor => factor (parser calls .factor) (parser calls .expression)

section Forgetting

variable {α : Type}

def forget : EStateM.Result Fault Ascribed α → EStateM.Result Fault Descent α
  | .ok value after => .ok value after.descent
  | .error fault after => .error fault after.descent

/-- An ascribed run and the run that reads the same tokens without noting who reads them. -/
abbrev Ascribes (run : Run α) (run' : Descent.Run α) : Prop :=
  PairedRuns (fun ascribed descent => ascribed.descent = descent) Eq Eq run run'

theorem Ascribes.forget_eq {run : Run α} {run' : Descent.Run α} (ascribes : Ascribes run run')
    (ascribed : Ascribed) : forget (run ascribed) = run' ascribed.descent := by
  have ends := ascribes ascribed ascribed.descent rfl
  generalize run ascribed = result at ends
  generalize run' ascribed.descent = result' at ends
  cases ends with
  | ok same states => rw [forget, same, states]
  | error same states => rw [forget, same, states]

theorem apart_ascribes (run : Descent.Run α) : Ascribes (apart run) run := by
  rintro ascribed _ rfl
  unfold apart
  cases run ascribed.descent with
  | ok value after => exact .ok rfl rfl
  | error fault after => exact .error rfl rfl

theorem eatAs_ascribes (reader : Reader) (kind : TokenKind) :
    Ascribes (eatAs reader kind) (Descent.eat kind) := by
  rintro ascribed _ rfl
  cases eaten : Descent.eat kind ascribed.descent with
  | ok token after =>
      have done : apart (Descent.eat kind) ascribed = .ok token ⟨after, ascribed.readings⟩ := by
        rw [apart, eaten]
      unfold eatAs
      rw [run_bind_ok done]
      exact .ok rfl rfl
  | error fault after =>
      have refused : apart (Descent.eat kind) ascribed =
          .error fault ⟨after, ascribed.readings⟩ := by
        rw [apart, eaten]
      unfold eatAs
      rw [run_bind_error refused]
      exact .error rfl rfl

theorem chain_ascribes (level : Descent.Level) {operand : Run (Tree Text)}
    {operand' : Descent.Run (Tree Text)} (operandAscribes : Ascribes operand operand')
    (turns : Nat) (left : Tree Text) :
    Ascribes (chain level operand turns left)
      (Descent.chain level.operators level.rule operand' turns left) := by
  induction turns generalizing left with
  | zero => exact .of_pure rfl
  | succ turns ih =>
      refine .bind_same (apart_ascribes _) fun continues => ?_
      split
      · refine .bind_same (eatAs_ascribes _ _) fun token => ?_
        refine .bind_same operandAscribes fun right => ?_
        exact .bind_same (apart_ascribes _) fun _ => ih _
      · exact .of_pure rfl

theorem level_ascribes (level : Descent.Level) {calls : Nat} {operand : Run (Tree Text)}
    (operandAscribes : Ascribes operand (Descent.parser level.operand calls)) :
    Ascribes (Ascribed.level level operand) (Descent.parser level.whole (calls + 1)) := by
  rw [level.parser_whole]
  refine .bind_same (apart_ascribes _) fun _ => .bind_same operandAscribes fun first => ?_
  refine .bind .of_get ?_
  rintro ascribed _ rfl
  exact chain_ascribes level operandAscribes _ first

theorem factor_ascribes {calls : Nat} {operand inner : Run (Tree Text)}
    (operandAscribes : Ascribes operand (Descent.factor calls))
    (innerAscribes : Ascribes inner (Descent.expression calls)) :
    Ascribes (factor operand inner) (Descent.factor (calls + 1)) := by
  rw [Descent.factor]
  refine .bind_same (apart_ascribes _) fun token => .bind_same (apart_ascribes _) fun _ => ?_
  refine .bind_same (apart_ascribes _) fun signed => ?_
  split
  · refine .bind_same (eatAs_ascribes _ _) fun _ => .bind_same operandAscribes fun tree => ?_
    exact .bind_same (apart_ascribes _) fun _ => .of_pure rfl
  · cases token.kind with
    | number =>
        refine .bind_same (eatAs_ascribes _ _) fun _ => .bind_same (apart_ascribes _) fun tree => ?_
        exact .bind_same (apart_ascribes _) fun _ => .of_pure rfl
    | leftParenthesis =>
        refine .bind_same (apart_ascribes _) fun _ => .bind_same (eatAs_ascribes _ _) fun _ => ?_
        refine .bind_same innerAscribes fun tree => .bind_same (eatAs_ascribes _ _) fun _ => ?_
        exact .bind_same (apart_ascribes _) fun _ => .of_pure rfl
    | operator => exact .of_throw rfl
    | rightParenthesis => exact .of_throw rfl
    | endOfInput => exact .of_throw rfl

/-- Noting the readers changes nothing else. -/
theorem parser_ascribes (calls : Nat) (nonterminal : Nonterminal) :
    Ascribes (parser calls nonterminal) (Descent.parser nonterminal calls) := by
  induction calls generalizing nonterminal with
  | zero => cases nonterminal <;> exact .of_throw rfl
  | succ calls ih =>
      cases nonterminal with
      | expression => exact level_ascribes .sums (ih .term)
      | term => exact level_ascribes .products (ih .factor)
      | factor => exact factor_ascribes (ih .factor) (ih .expression)

/-- The descent for an expression from the start of a stream, with the readers of its tokens. -/
def ascribe (calls : Nat) (tokens : List Token) (log : StepLog) :
    EStateM.Result Fault Ascribed (Tree Text) :=
  parser calls .expression (start tokens log)

theorem forget_ascribe (calls : Nat) (tokens : List Token) (log : StepLog) :
    forget (ascribe calls tokens log) = Descent.expression calls (Descent.start tokens log) :=
  (parser_ascribes calls .expression).forget_eq (start tokens log)

end Forgetting

/-- What was read of a stream is noted with its readers. -/
structure Tells (tokens : List Token) (ascribed : Ascribed) : Prop where
  tokens_eq : tokens = ascribed.seen ++ ascribed.unread
  terminated : Terminated ascribed.unread
  right : ∀ (place : Nat) (reading : Reading), ascribed.readings[place]? = some reading →
    reading.IsRight (ascribed.seen.take place)

def noted (ascribed : Ascribed) (reader : Reader) (token : Token) : Ascribed :=
  ⟨ascribed.descent.advanced, ascribed.readings ++ [⟨reader, token⟩]⟩

section Telling

variable {tokens rest : List Token} {token : Token} {ascribed : Ascribed} {reader : Reader}

@[simp] theorem unread_noted (ascribed : Ascribed) (reader : Reader) (token : Token) :
    (ascribed.noted reader token).unread = ascribed.unread.tail := rfl

@[simp] theorem seen_noted (ascribed : Ascribed) (reader : Reader) (token : Token) :
    (ascribed.noted reader token).seen = ascribed.seen ++ [token] :=
  List.map_append

theorem Tells.start (terminated : Terminated tokens) (log : StepLog) :
    Tells tokens (start tokens log) :=
  ⟨rfl, terminated, nofun⟩

theorem Tells.noted (tells : Tells tokens ascribed) (next : ascribed.unread = token :: rest)
    (lexeme : token.IsLexeme) (right : Reading.IsRight ascribed.seen ⟨reader, token⟩) :
    Tells tokens (ascribed.noted reader token) where
  tokens_eq := by
    rw [seen_noted, unread_noted, next, tells.tokens_eq, next, List.append_assoc]
    rfl
  terminated := by
    have terminated := tells.terminated
    rw [next] at terminated
    rw [unread_noted, next]
    exact terminated.tail lexeme
  right := by
    intro place reading found
    have length : ascribed.seen.length = ascribed.readings.length := List.length_map _
    rcases Nat.lt_or_ge place ascribed.readings.length with before | behind
    · rw [Ascribed.noted, List.getElem?_append_left before] at found
      rw [seen_noted, List.take_append_of_le_length (by omega)]
      exact tells.right place reading found
    · rw [Ascribed.noted, List.getElem?_append_right behind, List.getElem?_singleton,
        Option.ite_none_right_eq_some] at found
      obtain ⟨atEnd, isNew⟩ := found
      obtain rfl := Option.some.inj isNew
      rw [seen_noted, show place = ascribed.seen.length by omega, List.take_left]
      exact right

variable {descent : Descent}

/-- Behind what was read an operand is wanted or not. -/
structure Stands (tokens : List Token) (wants : Bool) (ascribed : Ascribed) : Prop
    extends Tells tokens ascribed where
  wants_eq : wantsOperand ascribed.seen = wants

theorem Stands.noted {wants : Bool} (stands : Stands tokens wants ascribed) (reader : Reader)
    (next : ascribed.unread = token :: rest) (lexeme : token.IsLexeme)
    (right : token.IsAdditive → reader = if wants then .sign else .loop .expression) :
    Stands tokens (token.kind == .leftParenthesis || token.kind == .operator)
      (ascribed.noted reader token) where
  toTells := by
    refine stands.toTells.noted next lexeme fun additive => ?_
    rw [stands.wants_eq]
    exact right additive
  wants_eq := by rw [seen_noted, wantsOperand_concat]

theorem Stands.of_unread {wants : Bool} (stands : Stands tokens wants ascribed)
    (same : descent.unread = ascribed.descent.unread) :
    Stands tokens wants ⟨descent, ascribed.readings⟩ where
  tokens_eq := by
    rw [unread, same]
    exact stands.tokens_eq
  terminated := by
    rw [unread, same]
    exact stands.terminated
  right := stands.right
  wants_eq := stands.wants_eq

theorem Stands.numeral {wants : Bool} (stands : Stands tokens wants ascribed) (token : Token) :
    Arrives (apart (Descent.numeral token)) ascribed (fun _ => Stands tokens wants)
      (Tells tokens) := by
  unfold Arrives apart Descent.numeral
  cases token.number with
  | ok tree => exact stands
  | error fault => exact stands.toTells

theorem apart_eq {α : Type} {run : Descent.Run α} {value : α}
    (done : run ascribed.descent = .ok value descent) :
    apart run ascribed = .ok value ⟨descent, ascribed.readings⟩ := by
  rw [apart, done]

theorem eatAs_eq (next : ascribed.unread = token :: rest) (behind : rest ≠ []) :
    eatAs reader token.kind ascribed = .ok token (ascribed.noted reader token) := by
  unfold eatAs
  rw [run_bind_ok (apart_eq (Descent.eat_eq next behind))]
  rfl

theorem eatAs_error {kind : TokenKind} (next : ascribed.unread = token :: rest)
    (other : token.kind ≠ kind) :
    eatAs reader kind ascribed =
      .error (.syntactic (.wrongKind kind token.kind) token.position) ascribed := by
  have refused : apart (Descent.eat kind) ascribed =
      .error (.syntactic (.wrongKind kind token.kind) token.position) ascribed := by
    rw [apart, Descent.eat_error next other]
  unfold eatAs
  exact run_bind_error refused

/-- A function is called where an operand is wanted, and returns behind one. -/
def Called (tokens : List Token) (run : Run (Tree Text)) : Prop :=
  ∀ ascribed, Stands tokens true ascribed →
    Arrives run ascribed (fun _ => Stands tokens false) (Tells tokens)

theorem whole_eq_of_additive (level : Descent.Level) (additive : token.IsAdditive)
    (operator : Descent.isOperatorOf level.operators token = true) :
    level.whole = .expression := by
  have goesOn : ¬ Descent.Stops level.whole token := by
    intro stops
    cases operator.symm.trans (level.stops_whole_iff.mp stops).1
  cases whole : level.whole with
  | expression => rfl
  | term =>
      rw [whole] at goesOn
      exact absurd (Descent.not_isOperatorOf_additive additive) goesOn
  | factor => exact absurd whole level.whole_ne

variable {operand inner : Run (Tree Text)}

theorem chain_called (level : Descent.Level) (operandCalled : Called tokens operand) (turns : Nat)
    (tree : Tree Text) (ascribed : Ascribed) (stands : Stands tokens false ascribed) :
    Arrives (chain level operand turns tree) ascribed (fun _ => Stands tokens false)
      (Tells tokens) := by
  induction turns generalizing tree ascribed with
  | zero => exact .of_ok rfl stands
  | succ turns ih =>
      obtain ⟨token, rest, next⟩ := List.exists_cons_of_ne_nil stands.terminated.ne_nil
      have terminated := next ▸ stands.terminated
      rw [chain]
      refine .bind_ok (apart_eq (Descent.atOperator_eq level.operators next)) ?_
      cases continues : Descent.isOperatorOf level.operators token with
      | false => exact .of_ok rfl stands
      | true =>
          have operator := level.isOperator terminated.head continues
          have lexeme := level.isLexeme operator
          have kind := level.kind_eq operator
          rw [if_pos rfl]
          refine .bind_ok (kind ▸ eatAs_eq next (terminated.tail lexeme).ne_nil) ?_
          -- A plus or minus is an operator of expressions only: the other loop never reads one.
          have noted := stands.noted (.loop level.whole) next lexeme fun additive => by
            rw [whole_eq_of_additive level additive continues]
            rfl
          rw [kind] at noted
          refine .bind (operandCalled _ noted) ?_
          intro right after behind
          refine .bind_ok (apart_eq (Descent.step_eq ..)) ?_
          exact ih _ _ (behind.of_unread rfl)

theorem level_called (level : Descent.Level) (operandCalled : Called tokens operand) :
    Called tokens (Ascribed.level level operand) := by
  intro ascribed stands
  refine .bind_ok (apart_eq (Descent.step_eq ..)) ?_
  refine .bind (operandCalled _ (stands.of_unread rfl)) ?_
  intro first after behind
  refine .bind_ok (run_get after) ?_
  exact chain_called level operandCalled _ first after behind

theorem signed_called (operandCalled : Called tokens operand) (text : Text)
    (stands : Stands tokens true ascribed) :
    Arrives (do
        let tree ← operand
        apart (Descent.step .reduce ("Created unary operation: " ++ text) none)
        return .unary text tree : Run (Tree Text)) ascribed (fun _ => Stands tokens false)
      (Tells tokens) := by
  refine .bind (operandCalled _ stands) ?_
  intro tree after behind
  refine .bind_ok (apart_eq (Descent.step_eq ..)) ?_
  exact .of_ok rfl (behind.of_unread rfl)

theorem group_called (innerCalled : Called tokens inner) (stands : Stands tokens true ascribed) :
    Arrives (do
        let tree ← inner
        let _ ← eatAs .closing .rightParenthesis
        apart (Descent.step .reduce "Completed parenthesized expression" none)
        return tree : Run (Tree Text)) ascribed (fun _ => Stands tokens false)
      (Tells tokens) := by
  refine .bind (innerCalled _ stands) ?_
  intro tree after behind
  obtain ⟨last, others, next⟩ := List.exists_cons_of_ne_nil behind.terminated.ne_nil
  have terminated := next ▸ behind.terminated
  by_cases closes : last.kind = .rightParenthesis
  · have lexeme := Token.IsLexeme.closing (Token.isClosing_of_kind terminated.head closes)
    refine .bind_ok (closes ▸ eatAs_eq next (terminated.tail lexeme).ne_nil) ?_
    have noted := behind.noted .closing next lexeme fun additive => by
      cases closes.symm.trans additive.kind
    rw [closes] at noted
    refine .bind_ok (apart_eq (Descent.step_eq ..)) ?_
    exact .of_ok rfl (noted.of_unread rfl)
  · exact .of_error (run_bind_error (eatAs_error next closes)) behind.toTells

theorem factor_called (operandCalled : Called tokens operand) (innerCalled : Called tokens inner) :
    Called tokens (factor operand inner) := by
  intro ascribed stands
  obtain ⟨token, rest, next⟩ := List.exists_cons_of_ne_nil stands.terminated.ne_nil
  have terminated := next ▸ stands.terminated
  have entered : Stands tokens true ⟨ascribed.descent.entered token, ascribed.readings⟩ :=
    stands.of_unread rfl
  refine .bind_ok (apart_eq (Descent.current_eq next)) ?_
  refine .bind_ok (apart_eq (Descent.step_eq ..)) ?_
  refine .bind_ok (apart_eq (Descent.atOperator_eq "+-" (by exact next))) ?_
  rcases terminated.head with lexeme | isLast
  · have behind := (terminated.tail lexeme).ne_nil
    cases lexeme with
    | numeral numeral =>
        rw [Descent.isOperatorOf_of_kind_ne _ (by simp [numeral.kind]), if_neg (by simp),
          numeral.kind]
        refine .bind_ok (numeral.kind ▸ eatAs_eq (by exact next) behind) ?_
        have noted := entered.noted .numeral next (.numeral numeral) fun additive => by
          cases numeral.kind.symm.trans additive.kind
        rw [numeral.kind] at noted
        refine .bind (noted.numeral token) ?_
        intro tree after behind
        refine .bind_ok (apart_eq (Descent.step_eq ..)) ?_
        exact .of_ok rfl (behind.of_unread rfl)
    | additive sign =>
        rw [Descent.isOperatorOf_additive sign, if_pos rfl]
        refine .bind_ok (sign.kind ▸ eatAs_eq (by exact next) behind) ?_
        have noted := entered.noted .sign next (.additive sign) fun _ => rfl
        rw [sign.kind] at noted
        exact signed_called operandCalled token.text noted
    | multiplicative multiplicative =>
        rw [Descent.not_isOperatorOf_multiplicative multiplicative, multiplicative.kind]
        exact .of_error rfl entered.toTells
    | opening opening =>
        rw [Descent.isOperatorOf_of_kind_ne _ (by simp [opening.kind]), if_neg (by simp),
          opening.kind]
        refine .bind_ok (apart_eq (Descent.step_eq ..)) ?_
        refine .bind_ok (opening.kind ▸ eatAs_eq (by exact next) behind) ?_
        have opened : Stands tokens true ⟨(ascribed.descent.entered token).logged .process
            "Processing parenthesized expression" none, ascribed.readings⟩ := entered.of_unread rfl
        have noted := opened.noted .opening next (.opening opening) fun additive => by
          cases opening.kind.symm.trans additive.kind
        rw [opening.kind] at noted
        exact group_called innerCalled noted
    | closing closing =>
        rw [Descent.isOperatorOf_of_kind_ne _ (by simp [closing.kind]), closing.kind]
        exact .of_error rfl entered.toTells
  · rw [Descent.isOperatorOf_of_kind_ne _ (by simp [isLast]), isLast]
    exact .of_error rfl entered.toTells

theorem parser_called (tokens : List Token) (calls : Nat) (nonterminal : Nonterminal) :
    Called tokens (parser calls nonterminal) := by
  induction calls generalizing nonterminal with
  | zero => exact fun ascribed stands => .of_error rfl stands.toTells
  | succ calls ih =>
      cases nonterminal with
      | expression => exact level_called .sums (ih .term)
      | term => exact level_called .products (ih .factor)
      | factor => exact factor_called (ih .factor) (ih .expression)

/-- However a descent ends, its readers are noted, and the signs among what was read are told from
the operators. -/
theorem tells_ascribe (terminated : Terminated tokens) (calls : Nat) (log : StepLog) :
    Tells tokens (stateOf (ascribe calls tokens log)) := by
  have stands : Stands tokens true (Ascribed.start tokens log) := ⟨.start terminated log, rfl⟩
  exact (parser_called tokens calls .expression _ stands).stateOf fun _ _ behind => behind.toTells

theorem Tells.reading_eq {front : List Token} (tells : Tells tokens ascribed)
    (tokens_eq : tokens = front ++ token :: rest)
    (read : front.length < ascribed.seen.length) :
    ∃ reader, ascribed.readings[front.length]? = some ⟨reader, token⟩ ∧
      Reading.IsRight front ⟨reader, token⟩ := by
  have split := tokens_eq.symm.trans tells.tokens_eq
  have inReadings : front.length < ascribed.readings.length := by
    rwa [seen, List.length_map] at read
  have sameFront : ascribed.seen.take front.length = front := by
    have same := congrArg (List.take front.length) split
    rw [List.take_left, List.take_append_of_le_length (by omega)] at same
    exact same.symm
  obtain ⟨⟨reader, other⟩, found⟩ : ∃ reading, ascribed.readings[front.length]? = some reading :=
    ⟨_, List.getElem?_eq_getElem inReadings⟩
  have right := tells.right front.length _ found
  rw [sameFront] at right
  have same := congrArg (·[front.length]?) split
  rw [List.getElem?_append_right (Nat.le_refl _), Nat.sub_self, List.getElem?_cons_zero,
    List.getElem?_append_left read, seen, List.getElem?_map, found] at same
  obtain rfl : token = other := Option.some.inj same
  exact ⟨reader, found, right⟩

end Telling

end Ascribed

end Reckon
