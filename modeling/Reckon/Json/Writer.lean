import Reckon.Double.Text
import Reckon.Json
import Reckon.Text.Quoted

/-!
# Writing JSON

The one text of a JSON value in each of two layouts: on one line, or with two spaces of indentation
a level. The members of an object are sorted by their keys, and only printable ASCII is written; any
other glyph of a text is an escape, in two halves when it lies beyond the first plane.
-/

set_option autoImplicit false

namespace Reckon.Json

def unitEscape (code : Nat) : List Char :=
  '\\' :: 'u' :: Text.hexDigits 4 code

def escapedCharacter (character : Char) : List Char :=
  let code := character.toNat
  if character == '\x22' then ['\\', '\x22']
  else if character == '\\' then ['\\', '\\']
  else if character == '\n' then ['\\', 'n']
  else if character == '\r' then ['\\', 'r']
  else if character == '\t' then ['\\', 't']
  else if code == 0x0c then ['\\', 'f']
  else if code == 0x08 then ['\\', 'b']
  else if 0x20 ≤ code && code ≤ 0x7e then [character]
  else if code < 0x10000 then unitEscape code
  else
    let offset := code - 0x10000
    unitEscape (0xd800 + offset / 0x400) ++ unitEscape (0xdc00 + offset % 0x400)

def escapedGlyph : Glyph → List Char
  | .whole character => escapedCharacter character
  | .half part => unitEscape part.code

def textCharacters (text : Text) : List Char :=
  '\x22' :: (text.toList.flatMap escapedGlyph ++ ['\x22'])

def integerCharacters (value : Int) : List Char :=
  Double.signText (value < 0) ++ Double.decimalDigits value.natAbs

/-- A double; the special values have names. -/
def realCharacters : Double → List Char
  | .nan => "NaN".toList
  | .infinite negative => Double.signText negative ++ "Infinity".toList
  | value => value.textCharacters

/-- How the parts of a list or an object are set apart. -/
inductive Layout where
  | line
  | indented
deriving DecidableEq

namespace Layout

/-- What stands between a bracket and the nearest part at a level. -/
def gap : Layout → Nat → List Char
  | .line, _ => []
  | .indented, level => '\n' :: List.replicate (2 * level) ' '

/-- What stands between two parts at a level. -/
def separator : Layout → Nat → List Char
  | .line, _ => [',', ' ']
  | .indented, level => ',' :: Layout.indented.gap level

end Layout

/-- Parts between brackets at a level, or the brackets alone when there are no parts. -/
def bracketed (layout : Layout) (level : Nat) (opening closing : Char) (parts : List (List Char)) :
    List Char :=
  if parts.isEmpty then [opening, closing]
  else
    opening :: (layout.gap (level + 1)
      ++ ((layout.separator (level + 1)).intercalate parts ++ (layout.gap level ++ [closing])))

def keyCodes (key : Text) : List Nat :=
  key.toList.map Glyph.code

/-- Members in the order of their keys. -/
def sortMembers {α : Type} (members : List (Text × α)) : List (Text × α) :=
  members.mergeSort fun left right => !(keyCodes right.1 < keyCodes left.1)

def memberCharacters (member : Text × List Char) : List Char :=
  textCharacters member.1 ++ (':' :: ' ' :: member.2)

mutual

/-- The text of a value that stands at a level. -/
def characters (layout : Layout) (level : Nat) : Json → List Char
  | .null => "null".toList
  | .boolean value => if value then "true".toList else "false".toList
  | .integer value => integerCharacters value
  | .real value => realCharacters value
  | .text value => textCharacters value
  | .list items => bracketed layout level '[' ']' (itemCharacters layout (level + 1) items)
  | .object members =>
    bracketed layout level '\x7b' '\x7d'
      ((sortMembers (valueCharacters layout (level + 1) members)).map memberCharacters)

def itemCharacters (layout : Layout) (level : Nat) : List Json → List (List Char)
  | [] => []
  | item :: rest => characters layout level item :: itemCharacters layout level rest

/-- The texts of the values of an object beside their keys. -/
def valueCharacters (layout : Layout) (level : Nat) :
    List (Text × Json) → List (Text × List Char)
  | [] => []
  | (key, value) :: rest =>
    (key, characters layout level value) :: valueCharacters layout level rest

end

def line (value : Json) : String :=
  String.ofList (value.characters .line 0)

/-- A value with two spaces of indentation a level. -/
def indented (value : Json) : String :=
  String.ofList (value.characters .indented 0)

end Reckon.Json
