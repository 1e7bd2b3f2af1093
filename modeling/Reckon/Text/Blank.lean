import Reckon.Text

/-!
# Blank characters

The class of characters that separate words, and trimming by a class of characters.
`trim` removes the longest blank run from either end and nothing from the middle.
-/

set_option autoImplicit false

namespace Reckon.Text

/-- Blank characters: tabs, line ends, the four information separators, and every space of the
character set. The zero-width space and the byte order mark are not blank. -/
def isBlank (character : Char) : Bool :=
  let code := character.toNat
  (0x09 ≤ code && code ≤ 0x0d) || (0x1c ≤ code && code ≤ 0x20) || code == 0x85 || code == 0xa0
    || code == 0x1680 || (0x2000 ≤ code && code ≤ 0x200a) || code == 0x2028 || code == 0x2029
    || code == 0x202f || code == 0x205f || code == 0x3000

def trimStartBy {α : Type} (inClass : α → Bool) (items : List α) : List α :=
  items.dropWhile inClass

def trimEndBy {α : Type} (inClass : α → Bool) (items : List α) : List α :=
  (items.reverse.dropWhile inClass).reverse

def trimBy {α : Type} (inClass : α → Bool) (items : List α) : List α :=
  trimEndBy inClass (trimStartBy inClass items)

def trimmed (characters : List Char) : List Char :=
  trimBy isBlank characters

def trim (text : Text) : Text :=
  ⟨trimBy (Glyph.isIn isBlank) text.toList⟩

end Reckon.Text
