import Reckon.Document.Fault
import Reckon.Document.Place
import Reckon.Json.Reader

/-!
# Scalars of a document

The three spellings of a scalar. A plain scalar has no quotes and ends at a mark of its
surroundings; inside single quotes only the quote itself is written twice; inside double quotes
there are escapes. A line end inside a scalar is folded: alone it is a space, and of several in a
row the first is dropped.
-/

set_option autoImplicit false

namespace Reckon.Document

/-- A scalar. Without quotes it may be spelled like something else than a text. -/
inductive Scalar where
  | plain (characters : List Char)
  | quoted (text : Text)
deriving DecidableEq

/-- What was read, and the place behind it. -/
structure Piece (α : Type) where
  items : List α
  place : Place

def Piece.glyphs (piece : Piece Char) : Piece Glyph :=
  ⟨piece.items.map Glyph.whole, piece.place⟩

/-- Line ends with blanks around them as they are read, given the first of them. -/
def folded (first : Char) (more : List Char) : List Char :=
  if readBreak first != '\n' then readBreak first :: more
  else if more.isEmpty then [' ']
  else more

/-! ## Plain scalars -/

/-- The line ends and blanks that follow a line end inside a plain scalar; nothing at a mark that
separates documents. -/
def plainBreaks : Nat → Place → Option (Piece Char) × Place
  | 0, place => (none, place)
  | bound + 1, place =>
    match place.rest with
    | character :: _ =>
      if character == ' ' then plainBreaks bound place.next
      else if isBreak character then
        if startsMark place.next.rest then (none, place.next)
        else
          match plainBreaks bound place.next with
          | (some piece, after) =>
            (some ⟨readBreak character :: piece.items, piece.place⟩, after)
          | stopped => stopped
      else (some ⟨[], place⟩, place)
    | [] => (some ⟨[], place⟩, place)

/-- What separates two words of a plain scalar. -/
structure PlainGap where
  /-- The characters that stand for the gap; none where the scalar has to end. -/
  characters : List Char
  place : Place
  brokeLine : Bool

def plainGap (place : Place) : PlainGap :=
  let blanks := place.span (· == ' ')
  let after := place.skip blanks.length
  match after.rest with
  | character :: _ =>
    if isBreak character then
      let line := after.next
      if startsMark line.rest then ⟨[], line, true⟩
      else
        match plainBreaks (line.left + 1) line with
        | (some piece, _) => ⟨folded character piece.items, piece.place, true⟩
        | (none, stopped) => ⟨[], stopped, true⟩
    else ⟨blanks, after, false⟩
  | [] => ⟨blanks, after, false⟩

def isFlowMark (character : Char) : Bool :=
  character == ',' || character == '?' || character == '[' || character == ']'
    || character == '\x7b' || character == '\x7d'

def colonSeparates (inFlow : Bool) : List Char → Bool
  | [] => true
  | character :: _ =>
    isGap character || (inFlow && isFlowMark character && character != '?')

def plainWord (inFlow : Bool) : List Char → List Char
  | [] => []
  | character :: rest =>
    if isGap character || (inFlow && isFlowMark character) then []
    else if character == ':' && colonSeparates inFlow rest then []
    else character :: plainWord inFlow rest

/-- A plain scalar, and whether a line end follows it. Outside flow collections it goes on only in
lines that are indented enough. -/
def plainScalar (inFlow : Bool) (indent : Int) : Nat → Place → Piece Char × Bool
  | 0, place => (⟨[], place⟩, false)
  | bound + 1, place =>
    let word := if place.rest.head? == some '#' then [] else plainWord inFlow place.rest
    if word.isEmpty then (⟨[], place⟩, false)
    else
      let gap := plainGap (place.skip word.length)
      let ends := gap.characters.isEmpty || gap.place.rest.head? == some '#'
        || (!inFlow && (gap.place.column : Int) < indent)
      if ends then (⟨word, gap.place⟩, gap.brokeLine)
      else
        let (more, brokeLine) := plainScalar inFlow indent bound gap.place
        if more.items.isEmpty then (⟨word, gap.place⟩, gap.brokeLine)
        else (⟨word ++ gap.characters ++ more.items, more.place⟩, brokeLine)

/-! ## Quoted scalars -/

/-- The line ends at the start of a line inside quotes, with the blanks around them dropped. A mark
that separates documents may not come there. -/
def quotedBreaks : Nat → Place → Except Fault (Piece Char)
  | 0, _ => .error .malformed
  | bound + 1, place =>
    if startsMark place.rest then .error .malformed
    else
      let line := place.skipWhile fun character => character == ' ' || character == '\t'
      match line.rest with
      | character :: _ =>
        if isBreak character then
          (quotedBreaks bound line.next).map fun piece =>
            ⟨readBreak character :: piece.items, piece.place⟩
        else .ok ⟨[], line⟩
      | [] => .ok ⟨[], line⟩

def letterEscape? : Char → Option Char
  | '0' => some '\x00'
  | 'a' => some '\x07'
  | 'b' => some '\x08'
  | 't' => some '\t'
  | '\t' => some '\t'
  | 'n' => some '\n'
  | 'v' => some '\x0b'
  | 'f' => some '\x0c'
  | 'r' => some '\r'
  | 'e' => some '\x1b'
  | ' ' => some ' '
  | '\x22' => some '\x22'
  | '\\' => some '\\'
  | '/' => some '/'
  | 'N' => some '\u0085'
  | '_' => some '\u00a0'
  | 'L' => some '\u2028'
  | 'P' => some '\u2029'
  | _ => none

def codeLength? : Char → Option Nat
  | 'x' => some 2
  | 'u' => some 4
  | 'U' => some 8
  | _ => none

def escapedGlyph (code : Nat) : Except Fault Glyph :=
  if code < 0x110000 then .ok (Glyph.ofCode code)
  else if code < 0x80000000 then .error (.value .noCharacter)
  else .error (.overflow .code)

def escapedCode (length : Nat) (characters : List Char) : Except Fault Nat :=
  let digits := characters.take length
  match Json.hexNumber? digits with
  | none => .error .malformed
  | some code => if digits.length < length then .error .openScalar else .ok code

/-- What an escape between double quotes stands for, given the place behind its backslash. -/
def readEscape (place : Place) : Except Fault (Piece Glyph) :=
  match place.rest with
  | [] => .error .openScalar
  | letter :: digits =>
    match letterEscape? letter, codeLength? letter with
    | some character, _ => .ok ⟨[character], place.next⟩
    | none, some length => do
      let code ← escapedCode length digits
      return ⟨[← escapedGlyph code], place.skip (length + 1)⟩
    | none, none =>
      if isBreak letter then (quotedBreaks place.left place.next).map Piece.glyphs
      else .error .malformed

/-- A gap inside quotes: blanks, or line ends that are folded. -/
def quotedGap (place : Place) : Except Fault (Piece Char) :=
  let blanks := place.span fun character => character == ' ' || character == '\t'
  let after := place.skip blanks.length
  match after.rest with
  | [] => .error .openScalar
  | character :: _ =>
    if isBreak character then
      (quotedBreaks after.left after.next).map fun piece =>
        ⟨folded character piece.items, piece.place⟩
    else .ok ⟨blanks, after⟩

/-- A scalar after its opening quote, up to its closing one. -/
def quotedScalar (quote : Char) : Nat → Place → Except Fault (Piece Glyph)
  | 0, _ => .error .malformed
  | bound + 1, place =>
    match place.rest with
    | [] => .error .openScalar
    | character :: rest =>
      let goOn := fun (piece : Piece Glyph) =>
        (quotedScalar quote bound piece.place).map fun more =>
          (⟨piece.items ++ more.items, more.place⟩ : Piece Glyph)
      if character == quote then
        if quote == '\x27' && rest.head? == some '\x27' then
          goOn ⟨['\x27'], place.skip 2⟩
        else .ok ⟨[], place.next⟩
      else if isGap character then ((quotedGap place).map Piece.glyphs).bind goOn
      else if quote == '\x22' && character == '\\' then (readEscape place.next).bind goOn
      else goOn ⟨[character], place.next⟩

end Reckon.Document
