import Reckon.Datum
import Reckon.Tree

/-!
# Trees as JSON

A node is an object that names its type, with the value of a number, the operator and operand of a
sign, or the operator and both operands of an operation. Reading takes only the keys that it needs,
in that order, and lets an operator be any value.
-/

set_option autoImplicit false

namespace Reckon

inductive RecordFault where
  | notANode (typeName : String)
  | notAnObject (typeName : String)
  | missingKey (key : Text)
  | unknownType (literal : String)
  | unreadableNumeral (text : Text)
  | integerTooLarge
  | notANumber (typeName : String)
  | callDepth
deriving DecidableEq

def RecordFault.message : RecordFault → String
  | .notANode typeName => "'" ++ typeName ++ "' object has no attribute 'to_dict'"
  | .notAnObject typeName => "'" ++ typeName ++ "' object has no attribute 'get'"
  | .missingKey key => Text.quoted key
  | .unknownType literal => "unknown node type: " ++ literal
  | .unreadableNumeral text => "could not convert string to float: " ++ Text.quoted text
  | .integerTooLarge => "int too large to convert to float"
  | .notANumber typeName =>
    "float() argument must be a string or a real number, not '" ++ typeName ++ "'"
  | .callDepth => ""

inductive NodeType where
  | number
  | unary
  | binary
deriving DecidableEq

def NodeType.name : NodeType → String
  | .number => "Number"
  | .unary => "UnaryOp"
  | .binary => "BinaryOp"

def NodeType.all : List NodeType :=
  [.number, .unary, .binary]

namespace Tree

/-- The type of the first object that is no node, from left to right. -/
def foreignType? {ω : Type} : Tree ω → Option String
  | .number _ => none
  | .unary _ operand => operand.foreignType?
  | .binary _ left right => left.foreignType?.or right.foreignType?
  | .foreign typeName => some typeName

/-- The JSON form of a tree whose operators have one; an object that is no node is nothing. -/
def toJsonWith {ω : Type} (operatorJson : ω → Json) : Tree ω → Json
  | .number value => .object [("type", .text NodeType.number.name), ("value", .real value)]
  | .unary operator operand =>
    .object [("type", .text NodeType.unary.name), ("operator", operatorJson operator),
      ("operand", operand.toJsonWith operatorJson)]
  | .binary operator left right =>
    .object [("type", .text NodeType.binary.name), ("operator", operatorJson operator),
      ("left", left.toJsonWith operatorJson), ("right", right.toJsonWith operatorJson)]
  | .foreign _ => .null

def toJson (tree : Tree Text) : Json :=
  tree.toJsonWith .text

/-- The record of a tree. The walk goes from left to right; it fails at the first object that is no
node, or where it would go below the given number of levels, whichever comes first. -/
def recordWithin : Nat → Tree Text → Except RecordFault Json
  | _, .foreign typeName => .error (.notANode typeName)
  | 0, _ => .error .callDepth
  | _ + 1, .number value =>
    .ok (.object [("type", .text NodeType.number.name), ("value", .real value)])
  | levels + 1, .unary operator operand => do
    let operandRecord ← recordWithin levels operand
    return .object [("type", .text NodeType.unary.name), ("operator", .text operator),
      ("operand", operandRecord)]
  | levels + 1, .binary operator left right => do
    let leftRecord ← recordWithin levels left
    let rightRecord ← recordWithin levels right
    return .object [("type", .text NodeType.binary.name), ("operator", .text operator),
      ("left", leftRecord), ("right", rightRecord)]

def record (tree : Tree Text) : Except RecordFault Json :=
  recordWithin depthLimit tree

def numberOfJson : Json → Except RecordFault Double
  | .real value => .ok value
  | .integer value =>
    let double := Double.ofInt value
    if double.isFinite then .ok double else .error .integerTooLarge
  | .boolean value => .ok (Double.ofInt (if value then 1 else 0))
  | .text text =>
    match Text.readDouble? text with
    | some value => .ok value
    | none => .error (.unreadableNumeral text)
  | other => .error (.notANumber (Datum.ofJson other).typeName)

def required (members : List (Text × Json)) (key : Text) : Except RecordFault Json :=
  match members.lookup key with
  | some value => .ok value
  | none => .error (.missingKey key)

def nodeType? : Json → Option NodeType
  | .text name => NodeType.all.find? fun nodeType => name == nodeType.name
  | _ => none

/-- The tree of a JSON value with at most a number of levels. -/
def ofJsonWithin : Nat → Json → Except RecordFault (Tree Json)
  | 0, _ => .error .callDepth
  | levels + 1, .object members => do
    let typeValue := (Json.member? "type" (.object members)).getD .null
    match nodeType? typeValue with
    | some .number => return .number (← numberOfJson (← required members "value"))
    | some .unary =>
      let operator ← required members "operator"
      return .unary operator (← ofJsonWithin levels (← required members "operand"))
    | some .binary =>
      let operator ← required members "operator"
      let left ← ofJsonWithin levels (← required members "left")
      let right ← ofJsonWithin levels (← required members "right")
      return .binary operator left right
    | none => .error (.unknownType (Datum.ofJson typeValue).literal)
  | _ + 1, other => .error (.notAnObject (Datum.ofJson other).typeName)

def ofJson (value : Json) : Except RecordFault (Tree Json) :=
  ofJsonWithin depthLimit value

def dumpJson (tree : Tree Json) : Except Fault Text :=
  (tree.map fun operator => (Datum.ofJson operator).plain).dump 0

end Tree

end Reckon
