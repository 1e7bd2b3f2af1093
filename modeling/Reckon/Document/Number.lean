import Reckon.Datum
import Reckon.Document.Fault
import Reckon.Double.Arithmetic
import Reckon.Json.Reader
import Reckon.Text.Parts

/-!
# Numbers of a document

How integers and doubles are spelled in a document, and what they are then. Numbers may have
underscores and may be written in base two, eight, sixteen or sixty. A spelling may still have no
value: digits may be missing behind the mark of a base, or be too many.
-/

set_option autoImplicit false

namespace Reckon.Document

/-! ## Spellings -/

def allIn (inClass : Char → Bool) (characters : List Char) : Bool :=
  !characters.isEmpty && characters.all inClass

def isDigitOrLow (character : Char) : Bool :=
  Text.isAsciiDigit character || character == '_'

def startsDigits : List Char → Bool
  | first :: rest => Text.isAsciiDigit first && rest.all isDigitOrLow
  | [] => false

/-- Whether characters are a group of base sixty: one digit, or two of which the first is below
six. -/
def isSixty : List Char → Bool
  | [single] => Text.isAsciiDigit single
  | [tens, ones] => '0' ≤ tens && tens ≤ '5' && Text.isAsciiDigit ones
  | _ => false

def colonParts (characters : List Char) : List (List Char) :=
  Text.partsAt ':' characters

def isUnsignedInteger (characters : List Char) : Bool :=
  match characters with
  | '0' :: 'b' :: rest =>
    allIn (fun digit => digit == '0' || digit == '1' || digit == '_') rest
  | '0' :: 'x' :: rest =>
    allIn (fun digit => (Json.hexValue? digit).isSome || digit == '_') rest
  | ['0'] => true
  | '0' :: rest => rest.all fun digit => ('0' ≤ digit && digit ≤ '7') || digit == '_'
  | _ =>
    match colonParts characters with
    | whole :: groups => startsDigits whole && groups.all isSixty
    | [] => false

/-- Whether an exponent of a double has its letter, its sign and digits. -/
def isExponent : List Char → Bool
  | mark :: sign :: digits =>
    (mark == 'e' || mark == 'E') && (sign == '+' || sign == '-')
      && allIn Text.isAsciiDigit digits
  | _ => false

/-- Whether what stands behind a point is digits and underscores and an exponent or nothing. -/
def isFraction (characters : List Char) : Bool :=
  let rest := characters.dropWhile isDigitOrLow
  rest.isEmpty || isExponent rest

def isInfinityName (characters : List Char) : Bool :=
  [".inf".toList, ".Inf".toList, ".INF".toList].contains characters

def isNanName (characters : List Char) : Bool :=
  [".nan".toList, ".NaN".toList, ".NAN".toList].contains characters

/-- Whether characters are groups of base sixty with a point behind the last one. -/
def isSixtyFraction (characters : List Char) : Bool :=
  let before := characters.takeWhile (· != '.')
  let behind := characters.dropWhile (· != '.')
  match behind, colonParts before with
  | '.' :: digits, whole :: group :: groups =>
    digits.all isDigitOrLow && startsDigits whole && (group :: groups).all isSixty
  | _, _ => false

/-- Whether characters are spelled like a double. A numeral that starts with its point has no
sign. -/
def isDouble (characters : List Char) : Bool :=
  let unsigned := (Text.takeSign characters).2
  let whole := unsigned.takeWhile isDigitOrLow
  match unsigned.dropWhile isDigitOrLow with
  | '.' :: behind =>
    if whole.isEmpty then
      isInfinityName unsigned || (unsigned == characters
        && (isNanName characters || (startsDigits (behind.take 1) && isFraction behind)))
    else startsDigits whole && isFraction behind
  | _ => isSixtyFraction unsigned

/-! ## Values -/

def withoutLows (characters : List Char) : List Char :=
  characters.filter (· != '_')

def baseValue (base : Nat) (digits : List Char) : Nat :=
  digits.foldl (fun value digit => base * value + (Json.hexValue? digit).getD 0) 0

def decimalNumber (digits : List Char) : Except Fault Nat :=
  if Text.longestInteger < digits.length then .error (.value (.tooManyDigits digits.length))
  else .ok (Text.decimalValue digits)

def sixtyValue (groups : List (List Char)) : Except Fault Nat :=
  groups.foldlM (fun value group => (decimalNumber group).map (60 * value + ·)) 0

def markedValue (base : Nat) (digits : List Char) : Except Fault Nat :=
  if digits.isEmpty then .error (.value (.noDigits base)) else .ok (baseValue base digits)

def unsignedValue (digits : List Char) : Except Fault Nat :=
  match digits with
  | '0' :: 'b' :: rest => markedValue 2 rest
  | '0' :: 'x' :: rest => markedValue 16 rest
  | '0' :: rest => .ok (baseValue 8 rest)
  | _ => sixtyValue (colonParts digits)

def integerValue (characters : List Char) : Except Fault Datum := do
  let (negative, digits) := Text.takeSign (withoutLows characters)
  let value : Int ← (unsignedValue digits).map Int.ofNat
  return .integer (if negative then -value else value)

/-- The value of a digit of base sixty that counts so much. -/
def placed (digit : Double) (placeValue : Int) : Except Fault Double :=
  let factor := Double.ofInt placeValue
  if factor.isFinite then .ok (digit * factor) else .error (.overflow .placeValue)

/-- The double that groups of base sixty write, the last of them with a point. -/
def sixtyDouble (groups : List (List Char)) : Except Fault Double := do
  let digits := groups.reverse.map fun group =>
    (Text.unsignedDecimal? false group).getD (.zero false)
  let (total, _) ← digits.foldlM (fun (total, placeValue) digit => do
    return (total + (← placed digit placeValue), placeValue * 60)) (Double.zero false, (1 : Int))
  return total

/-- The double without a sign that characters spell. -/
def unsignedDoubleValue (characters : List Char) : Except Fault Double :=
  if isInfinityName characters then .ok (.infinite false)
  else if isNanName characters then .ok .nan
  else if characters.contains ':' then sixtyDouble (colonParts characters)
  else .ok ((Text.unsignedDecimal? false characters).getD (.zero false))

def doubleValue (characters : List Char) : Except Fault Datum := do
  let (negative, rest) := Text.takeSign ((withoutLows characters).map Text.toAsciiLower)
  let magnitude ← unsignedDoubleValue rest
  return .real (if negative then -magnitude else magnitude)

end Reckon.Document
