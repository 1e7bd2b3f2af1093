import Reckon.Grammar.Rule
import Reckon.Proofs.Numerals

/-!
# Well-formed streams

The lexemes of expressions, and the streams that the lexer makes of them: one lexeme or more, and
one end of input behind the last. Tokens made by hand need not be lexemes, and their streams need
not be well-formed.
-/

set_option autoImplicit false

namespace Reckon

namespace Token

/-- A numeral in one of its written forms. -/
structure IsNumeral (token : Token) : Prop where
  kind : token.kind = .number
  text : token.text.IsNumeral

/-- A plus or a minus, as a sign or between two operands. -/
structure IsAdditive (token : Token) : Prop where
  kind : token.kind = .operator
  text : token.text = "+" ∨ token.text = "-"

structure IsMultiplicative (token : Token) : Prop where
  kind : token.kind = .operator
  text : token.text = "*" ∨ token.text = "/"

structure IsOpening (token : Token) : Prop where
  kind : token.kind = .leftParenthesis
  text : token.text = "("

structure IsClosing (token : Token) : Prop where
  kind : token.kind = .rightParenthesis
  text : token.text = ")"

/-- A token of an expression other than the end of input. -/
inductive IsLexeme (token : Token) : Prop where
  | numeral : token.IsNumeral → IsLexeme token
  | additive : token.IsAdditive → IsLexeme token
  | multiplicative : token.IsMultiplicative → IsLexeme token
  | opening : token.IsOpening → IsLexeme token
  | closing : token.IsClosing → IsLexeme token

variable {token : Token}

theorem isNumeral_of_digit (digit : Char) (isDigit : Text.isAsciiDigit digit = true)
    (position : Int) : (⟨.number, Text.ofCharacters [digit], position⟩ : Token).IsNumeral :=
  ⟨rfl, .whole (List.cons_ne_nil digit []) (by simpa using isDigit)⟩

theorem IsNumeral.symbol (numeral : token.IsNumeral) : token.symbol = "NUMBER" := by
  simp [Token.symbol, numeral.kind]

theorem IsAdditive.symbol (additive : token.IsAdditive) : token.symbol = token.text := by
  simp [Token.symbol, additive.kind]

theorem IsMultiplicative.symbol (multiplicative : token.IsMultiplicative) :
    token.symbol = token.text := by
  simp [Token.symbol, multiplicative.kind]

theorem IsOpening.symbol (opening : token.IsOpening) : token.symbol = "(" := by
  simp [Token.symbol, opening.kind, opening.text]

theorem IsClosing.symbol (closing : token.IsClosing) : token.symbol = ")" := by
  simp [Token.symbol, closing.kind, closing.text]

theorem symbol_of_kind_endOfInput (last : token.kind = .endOfInput) : token.symbol = endMark := by
  simp [Token.symbol, last]

theorem isEnd_iff : token.isEnd = true ↔ token.kind = .endOfInput := by
  simp [isEnd]

theorem IsLexeme.kind_ne (lexeme : token.IsLexeme) : token.kind ≠ .endOfInput := by
  cases lexeme with
  | numeral numeral => simp [numeral.kind]
  | additive additive => simp [additive.kind]
  | multiplicative multiplicative => simp [multiplicative.kind]
  | opening opening => simp [opening.kind]
  | closing closing => simp [closing.kind]

/-- Whether a token is a lexeme does not depend on its place. -/
theorem IsLexeme.of_same {other : Token} (isLexeme : token.IsLexeme)
    (kind : other.kind = token.kind) (text : other.text = token.text) : other.IsLexeme := by
  cases isLexeme with
  | numeral numeral => exact .numeral ⟨kind.trans numeral.kind, text ▸ numeral.text⟩
  | additive additive => exact .additive ⟨kind.trans additive.kind, text ▸ additive.text⟩
  | multiplicative multiplicative =>
      exact .multiplicative ⟨kind.trans multiplicative.kind, text ▸ multiplicative.text⟩
  | opening opening => exact .opening ⟨kind.trans opening.kind, text.trans opening.text⟩
  | closing closing => exact .closing ⟨kind.trans closing.kind, text.trans closing.text⟩

/-- Among lexemes and ends of input the class of a closing parenthesis tells it from all others. -/
theorem isClosing_of_kind (known : token.IsLexeme ∨ token.kind = .endOfInput)
    (kind : token.kind = .rightParenthesis) : token.IsClosing := by
  rcases known with lexeme | isLast
  · cases lexeme with
    | numeral numeral => simp [numeral.kind] at kind
    | additive additive => simp [additive.kind] at kind
    | multiplicative multiplicative => simp [multiplicative.kind] at kind
    | opening opening => simp [opening.kind] at kind
    | closing closing => exact closing
  · simp [isLast] at kind

theorem withoutEnd_cons_of_not (notEnd : token.isEnd = false) (rest : List Token) :
    withoutEnd (token :: rest) = token :: withoutEnd rest := by
  simp [withoutEnd, notEnd]

theorem IsLexeme.isEnd_eq_false (lexeme : token.IsLexeme) : token.isEnd = false := by
  simpa [isEnd] using lexeme.kind_ne

/-- The value of a numeral, which may be an infinity. Other tokens have none worth the name. -/
def value (token : Token) : Double :=
  (Text.readDouble? token.text).getD .nan

/-- Whether a token is a numeral beyond the finite doubles. -/
def isUnbounded (token : Token) : Bool :=
  token.kind == .number && !token.value.isFinite

theorem isUnbounded_of_kind_ne (other : token.kind ≠ .number) : token.isUnbounded = false := by
  simp [isUnbounded, other]

theorem IsAdditive.isUnbounded_eq_false (additive : token.IsAdditive) :
    token.isUnbounded = false :=
  isUnbounded_of_kind_ne (by simp [additive.kind])

theorem IsMultiplicative.isUnbounded_eq_false (multiplicative : token.IsMultiplicative) :
    token.isUnbounded = false :=
  isUnbounded_of_kind_ne (by simp [multiplicative.kind])

theorem IsOpening.isUnbounded_eq_false (opening : token.IsOpening) : token.isUnbounded = false :=
  isUnbounded_of_kind_ne (by simp [opening.kind])

theorem IsClosing.isUnbounded_eq_false (closing : token.IsClosing) : token.isUnbounded = false :=
  isUnbounded_of_kind_ne (by simp [closing.kind])

/-- Making the number of a numeral fails for one reason only. -/
theorem IsNumeral.number_eq (numeral : token.IsNumeral) :
    token.number =
      if token.isUnbounded then .error (.syntactic (.unboundedNumeral token.text) token.position)
      else .ok (.number token.value) := by
  obtain ⟨value, read⟩ := numeral.text.readDouble?_isSome
  cases finite : value.isFinite <;>
    simp [Token.number, isUnbounded, Token.value, read, numeral.kind, finite]

end Token

/-- A stream that a parser takes has one end of input, behind at least one other token. The tokens
before it may be of any kind. -/
theorem Token.exists_of_checkStream {tokens : List Token}
    (accepted : Token.checkStream tokens = .ok ()) :
    ∃ front last, tokens = front ++ [last] ∧ front ≠ [] ∧
      (∀ token ∈ front, token.isEnd = false) ∧ last.isEnd = true := by
  rcases List.eq_nil_or_concat tokens with rfl | ⟨front, last, rfl⟩
  · cases accepted
  · rw [List.concat_eq_append] at accepted ⊢
    rw [Token.checkStream, List.getLast?_concat] at accepted
    simp only at accepted
    split_ifs at accepted with alone single
    obtain ⟨counted, isLast⟩ := single
    rw [List.countP_append, List.countP_singleton, if_pos isLast] at counted
    have none : front.countP Token.isEnd = 0 := by omega
    refine ⟨front, last, rfl, ?_, ?_, isLast⟩
    · rintro rfl
      exact alone ⟨rfl, isLast⟩
    · intro token member
      exact Bool.eq_false_iff.mpr (List.countP_eq_zero.mp none token member)

/-- A stream can be split before an end of input in one way only. -/
theorem Token.eq_of_split_at_end {front seen rest : List Token} {last token : Token}
    (same : front ++ [last] = seen ++ token :: rest)
    (others : ∀ other ∈ front, other.isEnd = false) (isLast : token.isEnd = true) :
    front = seen ∧ last = token ∧ rest = [] := by
  induction front generalizing seen with
  | nil =>
      cases seen with
      | nil =>
          obtain ⟨rfl, rfl⟩ := List.cons.inj same
          exact ⟨rfl, rfl, rfl⟩
      | cons other seen => simp at same
  | cons first front ih =>
      cases seen with
      | nil =>
          obtain ⟨rfl, -⟩ := List.cons.inj same
          exact absurd isLast (by simp [others first])
      | cons other seen =>
          obtain ⟨rfl, behind⟩ := List.cons.inj same
          obtain ⟨rfl, rfl, rfl⟩ := ih behind fun other member => others other (by simp [member])
          exact ⟨rfl, rfl, rfl⟩

/-- Lexemes up to an end of input. -/
inductive Terminated : List Token → Prop where
  | last {token : Token} : token.kind = .endOfInput → Terminated [token]
  | lexeme {token : Token} {rest : List Token} :
      token.IsLexeme → Terminated rest → Terminated (token :: rest)

/-- At least one lexeme, and one end of input behind the last one. -/
structure WellFormed (tokens : List Token) : Prop where
  terminated : Terminated tokens
  nonempty : 1 < tokens.length

namespace Terminated

variable {tokens left right : List Token}

theorem ne_nil (terminated : Terminated tokens) : tokens ≠ [] := by
  cases terminated <;> simp

theorem exists_append (terminated : Terminated tokens) :
    ∃ lexemes last, tokens = lexemes ++ [last] ∧ (∀ token ∈ lexemes, token.IsLexeme) ∧
      last.kind = .endOfInput := by
  induction terminated with
  | @last token isLast => exact ⟨[], token, rfl, by simp, isLast⟩
  | @lexeme token rest lexeme _ ih =>
      obtain ⟨lexemes, last, rfl, areLexemes, isLast⟩ := ih
      refine ⟨token :: lexemes, last, rfl, ?_, isLast⟩
      intro other member
      rcases List.mem_cons.mp member with rfl | inRest
      · exact lexeme
      · exact areLexemes other inRest

theorem getLast? (terminated : Terminated tokens) :
    ∃ token, tokens.getLast? = some token ∧ token.kind = .endOfInput := by
  obtain ⟨lexemes, last, rfl, -, isLast⟩ := terminated.exists_append
  exact ⟨last, List.getLast?_concat, isLast⟩

theorem countP_isEnd (terminated : Terminated tokens) : tokens.countP Token.isEnd = 1 := by
  obtain ⟨lexemes, last, rfl, areLexemes, isLast⟩ := terminated.exists_append
  have noEnd : lexemes.countP Token.isEnd = 0 := by
    rw [List.countP_eq_zero]
    intro token member
    simp [(areLexemes token member).isEnd_eq_false]
  rw [List.countP_append, noEnd]
  simp [Token.isEnd, isLast]

theorem append (lexemes : ∀ token ∈ left, token.IsLexeme) (terminated : Terminated right) :
    Terminated (left ++ right) := by
  induction left with
  | nil => exact terminated
  | cons token rest ih =>
      refine .lexeme (lexemes token (by simp)) (ih ?_)
      intro member inRest
      exact lexemes member (by simp [inRest])

theorem head {token : Token} {rest : List Token} (terminated : Terminated (token :: rest)) :
    token.IsLexeme ∨ token.kind = .endOfInput := by
  cases terminated with
  | last isLast => exact .inr isLast
  | lexeme lexeme _ => exact .inl lexeme

theorem eq_nil_of_last {token : Token} {rest : List Token}
    (terminated : Terminated (token :: rest)) (isLast : token.kind = .endOfInput) : rest = [] := by
  cases terminated with
  | last _ => rfl
  | lexeme lexeme _ => exact absurd isLast lexeme.kind_ne

theorem tail {token : Token} {rest : List Token} (terminated : Terminated (token :: rest))
    (lexeme : token.IsLexeme) : Terminated rest := by
  cases terminated with
  | last isLast => exact absurd isLast lexeme.kind_ne
  | lexeme _ terminated => exact terminated

theorem behind (terminated : Terminated (left ++ right))
    (lexemes : ∀ token ∈ left, token.IsLexeme) : Terminated right := by
  induction left with
  | nil => exact terminated
  | cons token rest ih =>
      exact ih (terminated.tail (lexemes token (by simp)))
        fun other member => lexemes other (by simp [member])

/-- What stands in front of another token is a lexeme. -/
theorem isLexeme_in_front {token : Token} (terminated : Terminated (left ++ token :: right)) :
    ∀ other ∈ left, other.IsLexeme := by
  induction left with
  | nil => nofun
  | cons first rest ih =>
      rcases terminated.head with lexeme | isLast
      · intro other member
        rcases List.mem_cons.mp member with rfl | inRest
        · exact lexeme
        · exact ih (terminated.tail lexeme) other inRest
      · have nothing := terminated.eq_nil_of_last isLast
        simp at nothing

theorem isLexeme_of_mem_withoutEnd (terminated : Terminated tokens) {token : Token}
    (member : token ∈ Token.withoutEnd tokens) : token.IsLexeme := by
  obtain ⟨lexemes, last, rfl, areLexemes, isLast⟩ := terminated.exists_append
  obtain ⟨inTokens, notEnd⟩ := List.mem_filter.mp member
  rcases List.mem_append.mp inTokens with isLexeme | atEnd
  · exact areLexemes token isLexeme
  · obtain rfl := List.mem_singleton.mp atEnd
    simp [Token.isEnd_iff.mpr isLast] at notEnd

end Terminated

theorem WellFormed.checkStream {tokens : List Token} (wellFormed : WellFormed tokens) :
    Token.checkStream tokens = .ok () := by
  obtain ⟨last, found, isLast⟩ := wellFormed.terminated.getLast?
  have long : tokens.length ≠ 1 := Nat.ne_of_gt wellFormed.nonempty
  simp [Token.checkStream, found, long, wellFormed.terminated.countP_isEnd, Token.isEnd, isLast]

end Reckon
