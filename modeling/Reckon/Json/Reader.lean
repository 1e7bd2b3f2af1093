import Reckon.Double.Rounding
import Reckon.Json
import Reckon.Text.Digit
import Reckon.Text.Numeral

/-!
# Reading JSON

A text is read as one value with blanks around it. The reader works on what is left of the text, and
a fault names the place where it was found by what was left there. Besides the format proper it
accepts the names of not-a-number and of the infinities, and halves of characters in texts.
-/

set_option autoImplicit false

namespace Reckon.Json

inductive Cause where
  | value
  | comma
  | colon
  | key
  | extraData
  | openText
  | escape
  | unitEscape
  | control
  | byteOrderMark
deriving DecidableEq

def Cause.message : Cause → String
  | .value => "Expecting value"
  | .comma => "Expecting ',' delimiter"
  | .colon => "Expecting ':' delimiter"
  | .key => "Expecting property name enclosed in double quotes"
  | .extraData => "Extra data"
  | .openText => "Unterminated string starting at"
  | .escape => "Invalid \\escape"
  | .unitEscape => "Invalid \\uXXXX escape"
  | .control => "Invalid control character at"
  | .byteOrderMark => "Unexpected UTF-8 BOM (decode using utf-8-sig)"

/-- Why a text is not read as JSON. What malforms it is named with what was left of the text at the
place in question. -/
inductive Stop where
  | malformed (cause : Cause) (rest : List Char)
  | tooManyDigits (count : Nat)
  | tooDeep

def isSpace (character : Char) : Bool :=
  character == ' ' || character == '\t' || character == '\n' || character == '\r'

def skipSpace (characters : List Char) : List Char :=
  characters.dropWhile isSpace

def hexValue? (character : Char) : Option Nat :=
  if Text.isAsciiDigit character then some (character.toNat - 48)
  else if 'a' ≤ character && character ≤ 'f' then some (character.toNat - 87)
  else if 'A' ≤ character && character ≤ 'F' then some (character.toNat - 55)
  else none

def hexNumber? (digits : List Char) : Option Nat :=
  digits.foldlM (fun value digit => (hexValue? digit).map (16 * value + ·)) 0

/-- The four digits of a sixteen-bit escape, given what follows its letter. Something must follow
the digits. -/
def unitCode? (characters : List Char) : Option Nat :=
  if (characters.drop 4).isEmpty then none else hexNumber? (characters.take 4)

/-- The glyph of a sixteen-bit escape with a half, given what follows it. An upper half and an
escaped lower one in a row are one character. -/
def halfEscaped (part : Half) (rest : List Char) : Except Stop (Glyph × List Char) :=
  if part.isUpper && !(rest.drop 6).isEmpty then
    match rest with
    | '\\' :: 'u' :: digits =>
      match hexNumber? (digits.take 4) with
      | none => .error (.malformed .unitEscape ('u' :: digits))
      | some code =>
        match (Half.ofCode? code).filter fun next => !next.isUpper with
        | some lower => .ok (.whole (part.join lower), digits.drop 4)
        | none => .ok (.half part, rest)
    | _ => .ok (.half part, rest)
  else .ok (.half part, rest)

/-- The glyph of a sixteen-bit escape, given the text from its letter on. -/
def unitEscaped (characters : List Char) : Except Stop (Glyph × List Char) :=
  match unitCode? (characters.drop 1) with
  | none => .error (.malformed .unitEscape characters)
  | some code =>
    match Half.ofCode? code with
    | some part => halfEscaped part (characters.drop 5)
    | none => .ok (.whole (Char.ofNat code), characters.drop 5)

def simpleEscape? : Char → Option Char
  | '\x22' => some '\x22'
  | '\\' => some '\\'
  | '/' => some '/'
  | 'b' => some '\x08'
  | 'f' => some '\x0c'
  | 'n' => some '\n'
  | 'r' => some '\r'
  | 't' => some '\t'
  | _ => none

/-- The rest of a text after its opening quote. The opening is what was left at that quote; the
first argument bounds the characters. -/
def textFrom (opening : List Char) : Nat → List Char → Except Stop (List Glyph × List Char)
  | 0, _ => .error (.malformed .openText opening)
  | _ + 1, [] => .error (.malformed .openText opening)
  | bound + 1, character :: rest =>
    if character == '\x22' then .ok ([], rest)
    else if character == '\\' then
      match rest with
      | [] => .error (.malformed .openText opening)
      | letter :: after =>
        if letter == 'u' then do
          let (escaped, follows) ← unitEscaped rest
          let (more, behind) ← textFrom opening bound follows
          return (escaped :: more, behind)
        else
          match simpleEscape? letter with
          | none => .error (.malformed .escape (character :: rest))
          | some escaped => do
            let (more, behind) ← textFrom opening bound after
            return (.whole escaped :: more, behind)
    else if character.toNat ≤ 0x1f then .error (.malformed .control (character :: rest))
    else do
      let (more, behind) ← textFrom opening bound rest
      return (.whole character :: more, behind)

def readText (opening : List Char) : Except Stop (Text × List Char) := do
  let (glyphs, rest) ← textFrom opening opening.length (opening.drop 1)
  return (⟨glyphs⟩, rest)

/-- The digits of the whole part of a numeral: one zero, or digits that start with another. -/
def wholeDigits? : List Char → Option (List Char × List Char)
  | '0' :: rest => some (['0'], rest)
  | characters =>
    let digits := characters.takeWhile Text.isAsciiDigit
    if digits.isEmpty then none else some (digits, characters.dropWhile Text.isAsciiDigit)

def fractionDigits : List Char → List Char × List Char
  | '.' :: rest =>
    let digits := rest.takeWhile Text.isAsciiDigit
    if digits.isEmpty then ([], '.' :: rest) else (digits, rest.dropWhile Text.isAsciiDigit)
  | characters => ([], characters)

def exponentDigits (characters : List Char) : Option Int × List Char :=
  match characters with
  | mark :: rest =>
    if mark == 'e' || mark == 'E' then
      let (negative, after) := Text.takeSign rest
      let digits := after.takeWhile Text.isAsciiDigit
      if digits.isEmpty then (none, characters)
      else
        let value : Int := Text.decimalValue digits
        (some (if negative then -value else value), after.dropWhile Text.isAsciiDigit)
    else (none, characters)
  | [] => (none, [])

/-- A numeral: an integer unless it has a fraction or an exponent. -/
def readNumber (characters : List Char) : Except Stop (Json × List Char) :=
  let (negative, unsigned) :=
    match characters with
    | '-' :: rest => (true, rest)
    | _ => (false, characters)
  match wholeDigits? unsigned with
  | none => .error (.malformed .value characters)
  | some (whole, afterWhole) =>
    let (fraction, afterFraction) := fractionDigits afterWhole
    let (exponent?, rest) := exponentDigits afterFraction
    if fraction.isEmpty && exponent?.isNone then
      if Text.longestInteger < whole.length then .error (.tooManyDigits whole.length)
      else
        let value : Int := Text.decimalValue whole
        .ok (.integer (if negative then -value else value), rest)
    else
      let digits := Text.decimalValue (whole ++ fraction)
      .ok (.real (Double.ofDecimal negative digits (exponent?.getD 0 - fraction.length)), rest)

def words : List (List Char × Json) :=
  [("null".toList, .null), ("true".toList, .boolean true), ("false".toList, .boolean false),
   ("NaN".toList, .real .nan), ("Infinity".toList, .real (.infinite false)),
   ("-Infinity".toList, .real (.infinite true))]

def readScalar (characters : List Char) : Except Stop (Json × List Char) :=
  match words.find? fun word => word.1.isPrefixOf characters with
  | some (word, value) => .ok (value, characters.drop word.length)
  | none => readNumber characters

mutual

/-- A value. The first argument bounds the values and parts inside each other and in a row, and the
second one the lists and objects inside each other. -/
def readValue : Nat → Nat → List Char → Except Stop (Json × List Char)
  | 0, _, characters => .error (.malformed .value characters)
  | bound + 1, levels, characters =>
    match characters, levels with
    | '\x22' :: _, _ => do
      let (written, rest) ← readText characters
      return (.text written, rest)
    | '[' :: _, 0 => .error .tooDeep
    | '[' :: rest, inner + 1 =>
      match skipSpace rest with
      | ']' :: after => .ok (.list [], after)
      | first => do
        let (items, after) ← readItems bound inner first
        return (.list items, after)
    | '\x7b' :: _, 0 => .error .tooDeep
    | '\x7b' :: rest, inner + 1 =>
      match skipSpace rest with
      | '\x7d' :: after => .ok (.object [], after)
      | first => do
        let (members, after) ← readMembers bound inner [] first
        return (.object members, after)
    | _, _ => readScalar characters

def readItems : Nat → Nat → List Char → Except Stop (List Json × List Char)
  | 0, _, characters => .error (.malformed .value characters)
  | bound + 1, levels, characters => do
    let (item, rest) ← readValue bound levels characters
    match skipSpace rest with
    | ']' :: after => return ([item], after)
    | ',' :: after =>
      let (items, behind) ← readItems bound levels (skipSpace after)
      return (item :: items, behind)
    | other => .error (.malformed .comma other)

/-- The members of an object after those that were read, and its closing bracket. -/
def readMembers :
    Nat → Nat → List (Text × Json) → List Char → Except Stop (List (Text × Json) × List Char)
  | 0, _, _, characters => .error (.malformed .key characters)
  | bound + 1, levels, members, characters =>
    match characters with
    | '\x22' :: _ => do
      let (key, rest) ← readText characters
      match skipSpace rest with
      | ':' :: after =>
        let (value, behind) ← readValue bound levels (skipSpace after)
        let members := setMember key value members
        match skipSpace behind with
        | '\x7d' :: follows => return (members, follows)
        | ',' :: follows => readMembers bound levels members (skipSpace follows)
        | other => .error (.malformed .comma other)
      | other => .error (.malformed .colon other)
    | _ => .error (.malformed .key characters)

end

/-- Why a text is not read as JSON. What malforms it is named with its place. -/
inductive ReadFault where
  | malformed (cause : Cause) (position line column : Nat)
  | tooManyDigits (count : Nat)
  | tooDeep
deriving DecidableEq

def Stop.fault (characters : List Char) : Stop → ReadFault
  | .malformed cause rest =>
    let position := characters.length - rest.length
    let before := characters.take position
    .malformed cause position (before.count '\n' + 1)
      ((before.reverse.takeWhile (· != '\n')).length + 1)
  | .tooManyDigits count => .tooManyDigits count
  | .tooDeep => .tooDeep

def ReadFault.message : ReadFault → String
  | .malformed cause position line column =>
    cause.message ++ ": line " ++ toString line ++ " column " ++ toString column
      ++ " (char " ++ toString position ++ ")"
  | .tooManyDigits count => Text.tooManyToRead count
  | .tooDeep => "too deep"

def readAll (levels : Nat) (characters : List Char) : Except Stop Json :=
  match characters with
  | '\ufeff' :: _ => .error (.malformed .byteOrderMark characters)
  | _ => do
    let (value, rest) ← readValue (2 * characters.length + 2) levels (skipSpace characters)
    match skipSpace rest with
    | [] => return value
    | extra => .error (.malformed .extraData extra)

/-- The value that characters write, with at most a number of lists and objects inside each
other. -/
def readWithin (levels : Nat) (characters : List Char) : Except ReadFault Json :=
  (readAll levels characters).mapError fun stop => stop.fault characters

def read (string : String) : Except ReadFault Json :=
  readWithin string.length string.toList

end Reckon.Json
