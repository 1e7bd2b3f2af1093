import Reckon.Fault

/-!
# Tokens

A token has a class, its text and the place where the text starts. Parsers read tokens through
`Unread`, the part of a stream that is still to come together with the texts that a step log shows
for it.
-/

set_option autoImplicit false

namespace Reckon

/-- A token of a source. Tokens made by hand may have any text and any position. -/
structure Token where
  kind : TokenKind
  text : Text
  position : Int
deriving DecidableEq

def endMark : Text := "$"

namespace Token

/-- The grammar symbol of a token: the name of its class for numerals, the mark for the end, and the
text for all others. -/
def symbol (token : Token) : Text :=
  match token.kind with
  | .number => "NUMBER"
  | .endOfInput => endMark
  | _ => token.text

/-- The text of a token in a step log, where the end has its mark. -/
def shown (token : Token) : Text :=
  if token.kind = .endOfInput then endMark else token.text

def isEnd (token : Token) : Bool :=
  token.kind == .endOfInput

def withoutEnd (tokens : List Token) : List Token :=
  tokens.filter fun token => !token.isEnd

/-- What a parser asks of its tokens: at least one besides the end of input, and exactly one end of
input, which comes last. -/
def checkStream (tokens : List Token) : Except Fault Unit :=
  match tokens.getLast? with
  | none => .error (.syntactic .emptySource 0)
  | some last =>
    if tokens.length = 1 ∧ last.isEnd then .error (.syntactic .emptySource 0)
    else if tokens.countP isEnd = 1 ∧ last.isEnd then .ok ()
    else .error (.syntactic .misplacedEnd last.position)

end Token

/-- The tokens that are still to come, with the texts that a step log shows for them. -/
structure Unread where
  tokens : List Token
  texts : List Text
  texts_eq : texts = tokens.map Token.shown

namespace Unread

def ofTokens (tokens : List Token) : Unread :=
  ⟨tokens, tokens.map Token.shown, rfl⟩

def tail (unread : Unread) : Unread :=
  ⟨unread.tokens.tail, unread.texts.tail, by rw [unread.texts_eq, List.map_tail]⟩

/-- The stream behind its first token, or the same stream when that token is the last one. -/
def advance (unread : Unread) : Unread :=
  match unread.tokens with
  | _ :: _ :: _ => unread.tail
  | _ => unread

@[simp] theorem tokens_ofTokens (tokens : List Token) : (ofTokens tokens).tokens = tokens := rfl

@[simp] theorem tokens_tail (unread : Unread) : unread.tail.tokens = unread.tokens.tail := rfl

end Unread

end Reckon
