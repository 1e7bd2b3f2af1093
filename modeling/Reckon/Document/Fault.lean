import Reckon.Calendar
import Reckon.Text.Numeral

/-!
# Faults of documents

What keeps a document from having a meaning: its form, bytes that are no text, a value that is
spelled like one and is none, a number that is too large to be reckoned with, or too many nodes
inside each other.
-/

set_option autoImplicit false

namespace Reckon.Document

/-- Why there is no value where one is spelled. -/
inductive ValueFault where
  /-- A number has the mark of its base and no digits. -/
  | noDigits (base : Nat)
  | tooManyDigits (count : Nat)
  | calendar (fault : Calendar.Fault)
  /-- A code has no character. -/
  | noCharacter
deriving DecidableEq

def ValueFault.message : ValueFault → String
  | .noDigits base => "invalid literal for int() with base " ++ toString base ++ ": ''"
  | .tooManyDigits count => Text.tooManyToRead count
  | .calendar fault => fault.message
  | .noCharacter => "chr() arg not in range(0x110000)"

inductive Overflow where
  /-- The code of a character. -/
  | code
  /-- What a digit in front of a fraction counts. -/
  | placeValue
deriving DecidableEq

def Overflow.message : Overflow → String
  | .code => "Python int too large to convert to C int"
  | .placeValue => "int too large to convert to float"

inductive Fault where
  | malformed
  | openScalar
  | undecodable
  | value (fault : ValueFault)
  | overflow (what : Overflow)
  | tooDeep
deriving DecidableEq

def Fault.message : Fault → String
  | .malformed => "malformed document"
  | .openScalar => "malformed document"
  | .undecodable => "not a text"
  | .value fault => fault.message
  | .overflow what => what.message
  | .tooDeep => "too deep"

end Reckon.Document
