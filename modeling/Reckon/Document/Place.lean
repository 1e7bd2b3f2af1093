/-!
# Places in a document

What is left of a document at a place and how many characters that are, with the line and the column
of the place. Line ends are unified before a document is read; besides the line feed, the next-line
control and the two Unicode separators end a line.
-/

set_option autoImplicit false

namespace Reckon.Document

structure Place where
  rest : List Char
  left : Nat
  line : Nat
  column : Nat

def isBreak (character : Char) : Bool :=
  let code := character.toNat
  character == '\n' || code == 0x85 || code == 0x2028 || code == 0x2029

/-- A line end as it is read: the Unicode separators stay and the others are line feeds. -/
def readBreak (character : Char) : Char :=
  if character.toNat == 0x85 then '\n' else character

/-- A character that separates words or ends a line. -/
def isGap (character : Char) : Bool :=
  character == ' ' || character == '\t' || isBreak character

/-- Whether nothing follows, or a gap does. -/
def endsWord : List Char → Bool
  | [] => true
  | character :: _ => isGap character

/-- Whether a line starts with a mark that separates documents. -/
def startsMark : List Char → Bool
  | '-' :: '-' :: '-' :: rest => endsWord rest
  | '.' :: '.' :: '.' :: rest => endsWord rest
  | _ => false

namespace Place

/-- The place where a document starts. A byte order mark is skipped. -/
def start : List Char → Place
  | '\ufeff' :: rest => ⟨rest, rest.length, 0, 0⟩
  | characters => ⟨characters, characters.length, 0, 0⟩

def next (place : Place) : Place :=
  match place.rest with
  | [] => place
  | character :: rest =>
    if isBreak character then ⟨rest, place.left - 1, place.line + 1, 0⟩
    else if character == '\ufeff' then ⟨rest, place.left - 1, place.line, place.column⟩
    else ⟨rest, place.left - 1, place.line, place.column + 1⟩

def skip : Nat → Place → Place
  | 0, place => place
  | count + 1, place => skip count place.next

def span (inClass : Char → Bool) (place : Place) : List Char :=
  place.rest.takeWhile inClass

def skipWhile (inClass : Char → Bool) (place : Place) : Place :=
  place.skip (place.span inClass).length

end Place

end Reckon.Document
