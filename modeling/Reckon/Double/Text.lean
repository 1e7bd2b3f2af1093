import Reckon.Double.Shortest

/-!
# Doubles as text

`text` writes the shortest decimal that reads back: positionally for magnitudes from `10 ^ -4` up to
but not including `10 ^ 16`, always with a point, and with an exponent of at least two digits
otherwise. `display` is the form used in trees and traces, where an integer below `10 ^ 16` has no
point.
-/

set_option autoImplicit false

namespace Reckon.Double

def decimalDigits (value : Nat) : List Char :=
  Nat.toDigits 10 value

/-- The digits of a decimal without trailing zeros, and where the point stands, counted from the
first digit. -/
def significant (decimal : Decimal) : List Char × Int :=
  let digits := decimalDigits decimal.digits
  ((digits.reverse.dropWhile (· == '0')).reverse, digits.length + decimal.exponent)

def positional (digits : List Char) (point : Int) : List Char :=
  if point ≤ 0 then '0' :: '.' :: (List.replicate (-point).toNat '0' ++ digits)
  else if digits.length ≤ point.toNat then
    digits ++ List.replicate (point.toNat - digits.length) '0' ++ ['.', '0']
  else digits.take point.toNat ++ '.' :: digits.drop point.toNat

/-- An exponent with its sign and at least two digits. -/
def exponentText (exponent : Int) : List Char :=
  let digits := decimalDigits exponent.natAbs
  'e' :: (if exponent < 0 then '-' else '+') :: (List.replicate (2 - digits.length) '0' ++ digits)

/-- One digit before the point, the others behind it, and the exponent. -/
def scientific (digits : List Char) (point : Int) : List Char :=
  let mantissa :=
    match digits with
    | first :: second :: rest => first :: '.' :: second :: rest
    | short => short
  mantissa ++ exponentText (point - 1)

def magnitudeText (code : Fin finiteCodes) : List Char :=
  let (digits, point) := significant (shortest code)
  if -4 < point && point ≤ 16 then positional digits point else scientific digits point

def signText (negative : Bool) : List Char :=
  if negative then ['-'] else []

def textCharacters : Double → List Char
  | .nan => ['n', 'a', 'n']
  | .infinite negative => signText negative ++ ['i', 'n', 'f']
  | .finite negative code =>
    signText negative ++ (if code.val = 0 then ['0', '.', '0'] else magnitudeText code)

/-- The shortest text that reads back as the double. -/
def text (value : Double) : String :=
  String.ofList value.textCharacters

/-- Integers below `10 ^ 16` are displayed without a point. -/
def displayLimit : Nat := 10000000000000000

/-- The magnitude of a finite double when it is an integer below the limit. -/
def smallInteger? (code : Nat) : Option Nat :=
  let units := unitsOfCode code
  if units % unitsPerOne = 0 ∧ units < displayLimit * unitsPerOne then some (units / unitsPerOne)
  else none

def displayCharacters : Double → List Char
  | .finite negative code =>
    match smallInteger? code with
    | some magnitude => signText negative ++ decimalDigits magnitude
    | none => textCharacters (.finite negative code)
  | value => textCharacters value

/-- The form used in trees and traces: an integer below `10 ^ 16` without a point, a zero with its
sign, and `text` for the rest. -/
def display (value : Double) : String :=
  String.ofList value.displayCharacters

end Reckon.Double
