import Reckon.Document.Moment
import Reckon.Document.Node
import Reckon.Document.Number

/-!
# The meaning of nodes

Which datum a node stands for. A quoted scalar is a text. A plain scalar is a switch, a number, a
day, a moment or nothing when it is spelled like one, and a text otherwise. In a mapping a key that
comes again replaces the value and keeps the place, and the entries that a mapping merges come
before its own. The collections of a document are filled level by level, so of several faults the
one that lies least deep counts, and of those at one depth the first.
-/

set_option autoImplicit false

namespace Reckon.Document

/-! ## Scalars -/

def switches : List (String × Bool) :=
  [("yes", true), ("Yes", true), ("YES", true), ("no", false), ("No", false), ("NO", false),
   ("true", true), ("True", true), ("TRUE", true), ("false", false), ("False", false),
   ("FALSE", false), ("on", true), ("On", true), ("ON", true), ("off", false), ("Off", false),
   ("OFF", false)]

def nothings : List String :=
  ["", "~", "null", "Null", "NULL"]

def plainMeaning (characters : List Char) : Except Fault Datum :=
  let written := String.ofList characters
  match switches.lookup written with
  | some value => .ok (.boolean value)
  | none =>
    if isDouble characters then doubleValue characters
    else if isUnsignedInteger (Text.takeSign characters).2 then integerValue characters
    else if nothings.contains written then .ok .null
    else if written == "=" || written == "<<" then .error .malformed
    else
      match readTime? characters with
      | some made => made.mapError fun fault => .value (.calendar fault)
      | none => .ok (.text written)

def scalarMeaning : Scalar → Except Fault Datum
  | .plain characters => plainMeaning characters
  | .quoted text => .ok (.text text)

/-! ## Keys -/

inductive Quantity where
  | integer (value : Int)
  | real (value : Double)

/-- The number of a datum; switches count as one and zero. -/
def quantity? : Datum → Option Quantity
  | .boolean value => some (.integer (if value then 1 else 0))
  | .integer value => some (.integer value)
  | .real value => some (.real value)
  | _ => none

def sameInteger (integer : Int) : Double → Bool
  | .finite negative code =>
    Double.signedUnits negative code == integer * (Double.unitsPerOne : Int)
  | _ => false

/-- Whether two numbers are the same; not-a-number is one number here. -/
def Quantity.same : Quantity → Quantity → Bool
  | .integer left, .integer right => left == right
  | .real .nan, .real .nan => true
  | .real left, .real right => left.same right
  | .integer left, .real right => sameInteger left right
  | .real left, .integer right => sameInteger right left

def sameKey (left right : Datum) : Bool :=
  match left, right with
  | .text left, .text right => left == right
  | .null, .null => true
  | .day left, .day right => left == right
  | .moment left, .moment right => left.same right
  | left, right =>
    match quantity? left, quantity? right with
    | some left, some right => left.same right
    | _, _ => false

/-- The entries with a key set to a value; a key that is there stays as it is. -/
def setEntry (key value : Datum) : List (Datum × Datum) → List (Datum × Datum)
  | [] => [(key, value)]
  | (other, old) :: rest =>
    if sameKey other key then (other, value) :: rest else (other, old) :: setEntry key value rest

def mappingOf (entries : List (Datum × Datum)) : Datum :=
  .mapping (entries.foldl (fun known (key, value) => setEntry key value known) [])

/-! ## Faults at a depth -/

/-- A fault, and how deep below a node it lies. -/
structure DeepFault where
  depth : Nat
  fault : Fault

/-- A meaning, or the fault that counts. -/
abbrev Outcome (α : Type) := Except DeepFault α

namespace Outcome

/-- A result that is reached without going deeper. -/
def here {α : Type} (result : Except Fault α) : Outcome α :=
  result.mapError fun fault => ⟨0, fault⟩

/-- The outcome of what lies one level below. -/
def below {α : Type} (outcome : Outcome α) : Outcome α :=
  outcome.mapError fun deep => ⟨deep.depth + 1, deep.fault⟩

def both {α β γ : Type} (join : α → β → γ) : Outcome α → Outcome β → Outcome γ
  | .ok left, .ok right => .ok (join left right)
  | .error left, .error right => .error (if right.depth < left.depth then right else left)
  | .error left, .ok _ => .error left
  | .ok _, .error right => .error right

end Outcome

/-! ## Nodes -/

/-- Whether a key merges the mapping behind it, or those in the list behind it. -/
def isMergeKey : Node → Bool
  | .scalar (.plain characters) => characters == ['<', '<']
  | _ => false

def isMapping : Node → Bool
  | .mapping _ => true
  | _ => false

mutual

/-- Whether entries merge nothing but mappings, and those mappings neither. -/
def mergesMappings : List (Node × Node) → Bool
  | [] => true
  | (key, value) :: rest => (!isMergeKey key || canMerge value) && mergesMappings rest

def canMerge : Node → Bool
  | .mapping entries => mergesMappings entries
  | .sequence items => canMergeAll items
  | _ => false

def canMergeAll : List Node → Bool
  | [] => true
  | item :: rest => isMapping item && canMerge item && canMergeAll rest

end

/-- The meaning of a key. A collection is no key. -/
def keyMeaning : Node → Except Fault Datum
  | .scalar (.plain ['=']) => .ok (.text "=")
  | .scalar written => scalarMeaning written
  | _ => .error .malformed

mutual

def meaning : Node → Outcome Datum
  | .scalar written => .here (scalarMeaning written)
  | .sequence items => (Outcome.below (itemMeanings items)).map Datum.list
  | .mapping entries =>
    if mergesMappings entries then
      let (merged, own) := entryMeanings entries
      (Outcome.below (Outcome.both (· ++ ·) merged own)).map mappingOf
    else .error ⟨1, .malformed⟩

def itemMeanings : List Node → Outcome (List Datum)
  | [] => .ok []
  | item :: rest => Outcome.both (· :: ·) (meaning item) (itemMeanings rest)

/-- The meanings of the entries that a mapping merges, and of its own. -/
def entryMeanings :
    List (Node × Node) → Outcome (List (Datum × Datum)) × Outcome (List (Datum × Datum))
  | [] => (.ok [], .ok [])
  | (key, value) :: rest =>
    let (merged, own) := entryMeanings rest
    if isMergeKey key then (Outcome.both (· ++ ·) (mergeMeanings value) merged, own)
    else
      let entry := Outcome.both Prod.mk (.here (keyMeaning key)) (meaning value)
      (merged, Outcome.both (· :: ·) entry own)

def mergeMeanings : Node → Outcome (List (Datum × Datum))
  | .mapping entries =>
    let (merged, own) := entryMeanings entries
    Outcome.both (· ++ ·) merged own
  | .sequence items => mergeAll items
  | _ => .error ⟨0, .malformed⟩

/-- The meanings of the entries of nodes that are merged, those of the last node first. -/
def mergeAll : List Node → Outcome (List (Datum × Datum))
  | [] => .ok []
  | item :: rest => Outcome.both (· ++ ·) (mergeAll rest) (mergeMeanings item)

end

/-- The datum of a document; nothing for an empty one. Line ends are unified. -/
def read (source : Source) : Except Fault Datum := do
  match ← Node.ofTokens (scan source) with
  | none => return .null
  | some node => (meaning node).mapError DeepFault.fault

end Reckon.Document
