import Reckon.Double.Rounding
import Reckon.Text.Blank
import Reckon.Text.Digit

/-!
# Reading numerals

How a text is read as a double or as an integer. Blanks around the numeral are dropped, decimal
digits of any script count, and single underscores may stand between two digits. A double is a sign,
digits with at most one point and at least one digit, and an exponent, or one of the names of the
infinities and of not-a-number in any case.
-/

set_option autoImplicit false

namespace Reckon.Text

/-- Blanks that may surround a numeral: all but the information separators. -/
def isNumeralBlank (character : Char) : Bool :=
  isBlank character && !(0x1c ≤ character.toNat && character.toNat ≤ 0x1f)

/-- The numeral inside a text, with its digits written as `0` to `9`. -/
def numeralCharacters (text : Text) : List Char :=
  toAsciiDigits (trimBy isNumeralBlank text.characters)

/-- The characters without underscores, each of which has to stand between two digits. The first
argument tells whether a digit came just before. -/
def withoutUnderscores? : Bool → List Char → Option (List Char)
  | _, [] => some []
  | afterDigit, '_' :: rest =>
    match rest with
    | next :: _ => if afterDigit && isAsciiDigit next then withoutUnderscores? false rest else none
    | [] => none
  | _, character :: rest =>
    (withoutUnderscores? (isAsciiDigit character) rest).map (character :: ·)

def takeSign : List Char → Bool × List Char
  | '+' :: rest => (false, rest)
  | '-' :: rest => (true, rest)
  | characters => (false, characters)

def toAsciiLower (character : Char) : Char :=
  if 'A' ≤ character && character ≤ 'Z' then Char.ofNat (character.toNat + 32) else character

/-- The value of an exponent: a sign and at least one digit, and nothing else. -/
def exponentValue? (characters : List Char) : Option Int :=
  let (negative, digits) := takeSign characters
  if digits.isEmpty || !digits.all isAsciiDigit then none
  else some (if negative then -(decimalValue digits : Int) else decimalValue digits)

/-- The value behind the digits of a numeral: nothing, or a mark and an exponent. -/
def exponentPart? : List Char → Option Int
  | [] => some 0
  | mark :: rest => if mark == 'e' || mark == 'E' then exponentValue? rest else none

/-- An unsigned decimal numeral with an optional exponent, as a double of the given sign. -/
def unsignedDecimal? (negative : Bool) (characters : List Char) : Option Double := do
  let whole := characters.takeWhile isAsciiDigit
  let afterWhole := characters.dropWhile isAsciiDigit
  let (fraction, afterFraction) :=
    match afterWhole with
    | '.' :: rest => (rest.takeWhile isAsciiDigit, rest.dropWhile isAsciiDigit)
    | rest => ([], rest)
  if whole.isEmpty && fraction.isEmpty then none
  else
    let exponent ← exponentPart? afterFraction
    some (Double.ofDecimal negative (decimalValue (whole ++ fraction)) (exponent - fraction.length))

/-- An unsigned numeral or one of the names of a special value. -/
def unsignedDouble? (negative : Bool) (characters : List Char) : Option Double :=
  let name := characters.map toAsciiLower
  if name == ['i', 'n', 'f'] || name == ['i', 'n', 'f', 'i', 'n', 'i', 't', 'y'] then
    some (.infinite negative)
  else if name == ['n', 'a', 'n'] then some .nan
  else unsignedDecimal? negative characters

def readDouble? (text : Text) : Option Double := do
  let characters ← withoutUnderscores? false (numeralCharacters text)
  let (negative, rest) := takeSign characters
  unsignedDouble? negative rest

def longestInteger : Nat := 4300

def tooManyDigits (ending : String) : String :=
  "Exceeds the limit (4300 digits) for integer string conversion" ++ ending
    ++ "; use sys.set_int_max_str_digits() to increase the limit"

def tooManyToRead (digits : Nat) : String :=
  tooManyDigits (": value has " ++ toString digits ++ " digits")

def tooManyToWrite : String :=
  tooManyDigits ""

inductive IntegerFault where
  | malformed (text : Text)
  | tooLong (digits : Nat)
deriving DecidableEq

/-- The integer that a text writes: a sign and digits. The digits that come first are counted before
anything else behind them is looked at. -/
def readInteger (text : Text) : Except IntegerFault Int :=
  let (negative, unsigned) := takeSign (numeralCharacters text)
  let row := unsigned.takeWhile fun character => isAsciiDigit character || character == '_'
  match withoutUnderscores? false row with
  | none => .error (.malformed text)
  | some digits =>
    if longestInteger < digits.length then .error (.tooLong digits.length)
    else if digits.isEmpty || row.length < unsigned.length then .error (.malformed text)
    else .ok (if negative then -(decimalValue digits : Int) else decimalValue digits)

end Reckon.Text
