/-!
# Texts

A character beyond the first plane may be escaped in two halves, and an escape may write a half that
has no partner. A half is no character, so a text is a list of glyphs: characters, and halves that
stand alone. Every string is a text, and different strings are different texts. `toList` is the
normal form in which texts are reasoned about.
-/

set_option autoImplicit false

namespace Reckon

/-- A half of a character beyond the first plane, by its place among them. The upper halves come
before the lower ones. -/
structure Half where
  index : Fin 0x800
deriving DecidableEq

namespace Half

def code (half : Half) : Nat :=
  0xd800 + half.index.val

def ofCode? (code : Nat) : Option Half :=
  if inRange : 0xd800 ≤ code ∧ code < 0xe000 then some ⟨⟨code - 0xd800, by omega⟩⟩ else none

def isUpper (half : Half) : Bool :=
  half.index.val < 0x400

def join (upper lower : Half) : Char :=
  Char.ofNat (0x10000 + upper.index.val * 0x400 + (lower.index.val - 0x400))

end Half

/-- A character, or a half of one that stands alone. -/
inductive Glyph where
  | whole (character : Char)
  | half (part : Half)
deriving DecidableEq

namespace Glyph

instance : Coe Char Glyph := ⟨Glyph.whole⟩

def code : Glyph → Nat
  | .whole character => character.toNat
  | .half part => part.code

def ofCode (code : Nat) : Glyph :=
  match Half.ofCode? code with
  | some part => .half part
  | none => .whole (Char.ofNat code)

def isHalf : Glyph → Bool
  | .whole _ => false
  | .half _ => true

def isIn (inClass : Char → Bool) : Glyph → Bool
  | .whole character => inClass character
  | .half _ => false

/-- The character that shows a glyph: a half is shown as the replacement character. -/
def character : Glyph → Char
  | .whole character => character
  | .half _ => '\ufffd'

end Glyph

structure Text where
  toList : List Glyph
deriving DecidableEq

namespace Text

def ofCharacters (characters : List Char) : Text :=
  ⟨characters.map Glyph.whole⟩

def ofString (string : String) : Text :=
  ofCharacters string.toList

instance : Coe String Text := ⟨ofString⟩

instance : Append Text := ⟨fun left right => ⟨left.toList ++ right.toList⟩⟩

def isEmpty (text : Text) : Bool :=
  text.toList.isEmpty

def length (text : Text) : Nat :=
  text.toList.length

def intercalate (separator : Text) (texts : List Text) : Text :=
  ⟨separator.toList.intercalate (texts.map Text.toList)⟩

/-- The characters that show a text. Words and numerals have no replacement character, so what looks
for them may look at these characters. -/
def characters (text : Text) : List Char :=
  text.toList.map Glyph.character

/-- A text as a string, with the replacement character for halves. -/
def shown (text : Text) : String :=
  String.ofList text.characters

@[ext] theorem ext {left right : Text} (same : left.toList = right.toList) : left = right := by
  cases left
  cases right
  cases same
  rfl

@[simp] theorem toList_append (left right : Text) :
    (left ++ right).toList = left.toList ++ right.toList := rfl

@[simp] theorem toList_ofCharacters (characters : List Char) :
    (ofCharacters characters).toList = characters.map Glyph.whole := rfl

@[simp] theorem toList_ofString (string : String) :
    (ofString string).toList = string.toList.map Glyph.whole := rfl

@[simp] theorem characters_ofCharacters (characters : List Char) :
    (ofCharacters characters).characters = characters := by
  simp [Text.characters, Function.comp_def, Glyph.character]

@[simp] theorem ofCharacters_inj {left right : List Char} :
    ofCharacters left = ofCharacters right ↔ left = right :=
  ⟨fun same => by simpa using congrArg Text.characters same, congrArg ofCharacters⟩

@[simp] theorem ofString_inj {left right : String} :
    ofString left = ofString right ↔ left = right := by
  simp [ofString, String.toList_inj]

end Text

end Reckon
