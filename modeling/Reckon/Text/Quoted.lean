import Reckon.Text
import Reckon.Text.Printable

/-!
# Quoted texts

A text written between quotes, with everything that would not print written as an escape. The
quotes are single unless the text holds a single quote and no double one, so at most one kind of
quote is ever escaped. A half is always escaped, so what is quoted is a string.
-/

set_option autoImplicit false

namespace Reckon.Text

def hexDigit (value : Nat) : Char :=
  if value < 10 then Char.ofNat (48 + value) else Char.ofNat (87 + value)

/-- The last `width` hexadecimal digits of a number, leading zeros included. -/
def hexDigits : Nat → Nat → List Char
  | 0, _ => []
  | width + 1, number => hexDigits width (number / 16) ++ [hexDigit (number % 16)]

def chooseQuote (text : Text) : Char :=
  if text.toList.contains '\x27' && !text.toList.contains '\x22' then '\x22' else '\x27'

/-- The escape of a code, as short as it can be. -/
def codeEscape (code : Nat) : List Char :=
  if code < 0x100 then '\\' :: 'x' :: hexDigits 2 code
  else if code < 0x10000 then '\\' :: 'u' :: hexDigits 4 code
  else '\\' :: 'U' :: hexDigits 8 code

def quotedCharacter (quote character : Char) : List Char :=
  if character == quote || character == '\\' then ['\\', character]
  else if character == '\t' then ['\\', 't']
  else if character == '\n' then ['\\', 'n']
  else if character == '\r' then ['\\', 'r']
  else if isPrintable character then [character]
  else codeEscape character.toNat

def quotedGlyph (quote : Char) : Glyph → List Char
  | .whole character => quotedCharacter quote character
  | .half part => codeEscape part.code

/-- A text between quotes, with escapes for what does not print. -/
def quoted (text : Text) : String :=
  let quote := chooseQuote text
  String.ofList ((quote :: text.toList.flatMap (quotedGlyph quote)) ++ [quote])

end Reckon.Text
