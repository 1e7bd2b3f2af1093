import Reckon.Calendar
import Reckon.Json
import Reckon.Text.Numeral
import Reckon.Text.Quoted

/-!
# Data of a document

The values that a configuration document can hold: those of JSON, days and moments, and mappings
with keys of any kind. A datum has two texts, its literal, in which texts are quoted, and its plain
text, in which a text stands for itself; neither can be written when an integer in it is too long or
when it goes too deep. It counts as true unless it is nothing, no, zero or empty, and some data can
be taken for an integer.
-/

set_option autoImplicit false

namespace Reckon

inductive Datum where
  | null
  | boolean (value : Bool)
  | integer (value : Int)
  | real (value : Double)
  | text (value : Text)
  | day (value : Day)
  | moment (value : Moment)
  | list (items : List Datum)
  | mapping (entries : List (Datum × Datum))

namespace Datum

instance : Inhabited Datum := ⟨.null⟩

mutual

def ofJson : Json → Datum
  | .null => .null
  | .boolean value => .boolean value
  | .integer value => .integer value
  | .real value => .real value
  | .text value => .text value
  | .list items => .list (ofItems items)
  | .object members => .mapping (ofMembers members)

def ofItems : List Json → List Datum
  | [] => []
  | item :: rest => ofJson item :: ofItems rest

def ofMembers : List (Text × Json) → List (Datum × Datum)
  | [] => []
  | (key, value) :: rest => (.text key, ofJson value) :: ofMembers rest

end

def typeName : Datum → String
  | .null => "NoneType"
  | .boolean _ => "bool"
  | .integer _ => "int"
  | .real _ => "float"
  | .text _ => "str"
  | .day _ => "datetime.date"
  | .moment _ => "datetime.datetime"
  | .list _ => "list"
  | .mapping _ => "dict"

def isTrue : Datum → Bool
  | .null => false
  | .boolean value => value
  | .integer value => value != 0
  | .real value => !value.isZero
  | .text value => !value.isEmpty
  | .day _ => true
  | .moment _ => true
  | .list items => !items.isEmpty
  | .mapping entries => !entries.isEmpty

def integerText (value : Int) : String :=
  String.ofList (Double.signText (value < 0) ++ Double.decimalDigits value.natAbs)

mutual

def literal : Datum → String
  | .null => "None"
  | .boolean value => if value then "True" else "False"
  | .integer value => integerText value
  | .real value => value.text
  | .text value => Text.quoted value
  | .day value => value.literal
  | .moment value => value.literal
  | .list items => "[" ++ ", ".intercalate (itemLiterals items) ++ "]"
  | .mapping entries => "\x7b" ++ ", ".intercalate (entryLiterals entries) ++ "\x7d"

def itemLiterals : List Datum → List String
  | [] => []
  | item :: rest => literal item :: itemLiterals rest

def entryLiterals : List (Datum × Datum) → List String
  | [] => []
  | (key, value) :: rest => (literal key ++ ": " ++ literal value) :: entryLiterals rest

end

def plain : Datum → Text
  | .text value => value
  | .day value => value.text
  | .moment value => value.text
  | other => other.literal

/-- Why a datum has no text. -/
inductive WritingFault where
  /-- An integer has too many digits. -/
  | tooLong
  /-- Too many data stand inside each other. -/
  | tooDeep
deriving DecidableEq

def WritingFault.message : WritingFault → String
  | .tooLong => Text.tooManyToWrite
  | .tooDeep => "too deep"

def isWritableInteger (value : Int) : Bool :=
  value.natAbs < Nat.pow 10 Text.longestInteger

mutual

/-- Whether a datum can be written. The walk goes from left to right; it fails at the first integer
that is too long, or where it would go below the given number of levels, whichever comes first. -/
def checkWritable : Nat → Datum → Except WritingFault Unit
  | 0, _ => .error .tooDeep
  | _ + 1, .integer value => if isWritableInteger value then .ok () else .error .tooLong
  | levels + 1, .list items => checkItems levels items
  | levels + 1, .mapping entries => checkEntries levels entries
  | _ + 1, _ => .ok ()

def checkItems : Nat → List Datum → Except WritingFault Unit
  | _, [] => .ok ()
  | levels, item :: rest => do
    checkWritable levels item
    checkItems levels rest

def checkEntries : Nat → List (Datum × Datum) → Except WritingFault Unit
  | _, [] => .ok ()
  | levels, (key, value) :: rest => do
    checkWritable levels key
    checkWritable levels value
    checkEntries levels rest

end

/-- The plain text of a datum with at most a number of levels. -/
def writtenWithin (levels : Nat) (datum : Datum) : Except WritingFault Text := do
  checkWritable levels datum
  return datum.plain

inductive IntegerFault where
  | text (fault : Text.IntegerFault)
  | notANumber
  | infinite
  | wrongType (typeName : String)
deriving DecidableEq

/-- The wording of a fault. No more than 200 characters of what is no integer are shown. -/
def IntegerFault.message : IntegerFault → String
  | .text (.malformed source) =>
    "invalid literal for int() with base 10: "
      ++ String.ofList ((Text.quoted source).toList.take 200)
  | .text (.tooLong digits) => Text.tooManyToRead digits
  | .notANumber => "cannot convert float NaN to integer"
  | .infinite => "cannot convert float infinity to integer"
  | .wrongType typeName =>
    "int() argument must be a string, a bytes-like object or a real number, not '"
      ++ typeName ++ "'"

def truncate (negative : Bool) (code : Nat) : Int :=
  let whole : Int := Double.unitsOfCode code / Double.unitsPerOne
  if negative then -whole else whole

/-- A datum taken for an integer: numbers lose their fraction and texts are read. -/
def toInteger : Datum → Except IntegerFault Int
  | .boolean value => .ok (if value then 1 else 0)
  | .integer value => .ok value
  | .real (.finite negative code) => .ok (truncate negative code)
  | .real .nan => .error .notANumber
  | .real (.infinite _) => .error .infinite
  | .text value => (Text.readInteger value).mapError .text
  | other => .error (.wrongType other.typeName)

def lookupText (key : Text) : List (Datum × Datum) → Option Datum
  | [] => none
  | (.text other, value) :: rest => if other == key then some value else lookupText key rest
  | _ :: rest => lookupText key rest

/-- The entries with a text key set to a value; a key that is there keeps its place. -/
def setText (key : Text) (value : Datum) : List (Datum × Datum) → List (Datum × Datum)
  | [] => [(.text key, value)]
  | (.text other, old) :: rest =>
    if other == key then (.text other, value) :: rest
    else (.text other, old) :: setText key value rest
  | entry :: rest => entry :: setText key value rest

end Datum

end Reckon
