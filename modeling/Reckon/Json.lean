import Reckon.Double.Basic
import Reckon.Text

/-!
# JSON values

The values of the interchange format. An object is a list of members in the order in which their
keys first appeared; a key that comes again replaces the value and keeps the place.
-/

set_option autoImplicit false

namespace Reckon

/-- A JSON value. Numerals without point and exponent are integers of any size. -/
inductive Json where
  | null
  | boolean (value : Bool)
  | integer (value : Int)
  | real (value : Double)
  | text (value : Text)
  | list (items : List Json)
  | object (members : List (Text × Json))

namespace Json

instance : Inhabited Json := ⟨.null⟩

def setMember {α : Type} (key : Text) (value : α) : List (Text × α) → List (Text × α)
  | [] => [(key, value)]
  | (other, old) :: rest =>
    if other == key then (key, value) :: rest else (other, old) :: setMember key value rest

def member? (key : Text) : Json → Option Json
  | .object members => members.lookup key
  | _ => none

end Json

end Reckon
