import Reckon.Document.Fault

/-!
# Sources of documents

A document comes in blocks, and what is wrong with a block as a whole, a character that no document
may have or bytes that are no text, is found when the reading gets there. A source is what can be
read before that, with what is wrong behind it.
-/

set_option autoImplicit false

namespace Reckon.Document

structure Source where
  characters : List Char
  /-- What is wrong behind the last character; nothing where the document ends there. -/
  broken? : Option Fault

namespace Source

def isAllowed (character : Char) : Bool :=
  let code := character.toNat
  code == 0x09 || code == 0x0a || code == 0x0d || (0x20 ≤ code && code ≤ 0x7e) || code == 0x85
    || (0xa0 ≤ code && code ≤ 0xd7ff) || (0xe000 ≤ code && code ≤ 0xfffd) || 0x10000 ≤ code

def firstBlock : Nat := 8192

/-- The characters of every other block. -/
def laterBlock : Nat := 4096

/-- How many of the first `count` characters are in whole blocks. -/
def inWholeBlocks (count : Nat) : Nat :=
  if count < firstBlock then 0
  else firstBlock + (count - firstBlock) / laterBlock * laterBlock

def ofText (characters : List Char) : Source :=
  let allowed := (characters.takeWhile isAllowed).length
  if allowed = characters.length then ⟨characters, none⟩
  else ⟨characters.take (inWholeBlocks allowed), some .malformed⟩

def ofReadable (characters : List Char) : Source :=
  let source := ofText (characters.take (inWholeBlocks characters.length))
  ⟨source.characters, some (source.broken?.getD .undecodable)⟩

end Source

end Reckon.Document
