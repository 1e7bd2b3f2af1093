import Reckon.Text.Blank
import Reckon.Text.Digit
import Reckon.Token

/-!
# Lexing

A source is trimmed and cut into tokens from left to right: blanks are skipped, a run of digits and
points is one numeral, and each operator and parenthesis is a token of its own. Positions count
glyphs of the trimmed source, and the end of input stands behind its last glyph.
-/

set_option autoImplicit false

namespace Reckon.Token

def isNumeralGlyph (glyph : Glyph) : Bool :=
  glyph.isIn Text.isAsciiDigit || glyph == '.'

def singleKind? : Glyph → Option TokenKind
  | .whole '+' | .whole '-' | .whole '*' | .whole '/' => some .operator
  | .whole '(' => some .leftParenthesis
  | .whole ')' => some .rightParenthesis
  | _ => none

/-- Where the second point of a run stands, if it has two. -/
def secondPoint? (run : List Glyph) : Option Nat :=
  let afterFirst := (run.dropWhile (· != Glyph.whole '.')).drop 1
  let between := afterFirst.takeWhile (· != Glyph.whole '.')
  if between.length < afterFirst.length then
    some ((run.takeWhile (· != Glyph.whole '.')).length + 1 + between.length)
  else none

/-- The numeral that a run of digits and points makes. It has at most one point, and none at its
end. -/
def numeral (run : List Glyph) (position : Nat) : Except Fault Token :=
  match secondPoint? run with
  | some offset => .error (.lexical .secondPoint (position + offset : Nat))
  | none =>
    if run.getLast? = some '.' then .error (.lexical (.finalPoint ⟨run⟩) position)
    else .ok ⟨.number, ⟨run⟩, position⟩

def scan (position : Nat) (glyphs : List Glyph) : Except Fault (List Token) :=
  match glyphs with
  | [] => .ok []
  | glyph :: rest =>
    if glyph.isIn Text.isBlank then scan (position + 1) rest
    else if isNumeralGlyph glyph then do
      let run := glyph :: rest.takeWhile isNumeralGlyph
      let token ← numeral run position
      let tokens ← scan (position + run.length) (rest.dropWhile isNumeralGlyph)
      return token :: tokens
    else
      match singleKind? glyph with
      | none => .error (.lexical (.strangeCharacter glyph) position)
      | some kind => do
        let tokens ← scan (position + 1) rest
        return ⟨kind, ⟨[glyph]⟩, position⟩ :: tokens
termination_by glyphs.length
decreasing_by
  · simp
  · have := (rest.dropWhile_suffix isNumeralGlyph).length_le
    simp only [List.length_cons]
    omega
  · simp

/-- The tokens of a source, with the end of input behind them. That there is a token at all is
checked, although a trimmed source never is without one. -/
def tokenize (source : Text) : Except Fault (List Token) :=
  match (Text.trim source).toList with
  | [] => .error (.lexical .emptySource 0)
  | glyphs => do
    let tokens ← scan 0 glyphs
    if tokens.isEmpty then throw (.lexical .noTokens 0)
    else return tokens ++ [⟨.endOfInput, "", glyphs.length⟩]

end Reckon.Token
