import Mathlib.Data.List.Forall2
import Mathlib.Data.List.Nodup
import Reckon.Json.Writer
import Reckon.Text.Numeral

/-!
# Values to be written and read

The JSON values that a program can hold: their texts are strings, and no object has a key twice.
Written, the members of an object stand in the order of their keys, so what is read back is the
value with its members in that order, which is the same value but for the order. A reader has
limits: how deep lists and objects stand in each other, and how many digits an integer has.
-/

set_option autoImplicit false

namespace Reckon

/-- A text without halves. -/
def Text.IsString (text : Text) : Prop :=
  ∃ characters, text = .ofCharacters characters

namespace Json

/-- A character of ASCII that is no control character. -/
def IsAscii (character : Char) : Prop :=
  0x20 ≤ character.toNat ∧ character.toNat ≤ 0x7e

instance (character : Char) : Decidable (IsAscii character) :=
  inferInstanceAs (Decidable (_ ∧ _))

/-- Texts and keys are strings, and the keys of an object are different. -/
inductive IsProper : Json → Prop where
  | null : IsProper .null
  | boolean {value : Bool} : IsProper (.boolean value)
  | integer {value : Int} : IsProper (.integer value)
  | real {value : Double} : IsProper (.real value)
  | text {value : Text} : value.IsString → IsProper (.text value)
  | list {items : List Json} : (∀ item ∈ items, IsProper item) → IsProper (.list items)
  | object {members : List (Text × Json)} :
      (members.map Prod.fst).Nodup → (∀ member ∈ members, member.1.IsString) →
      (∀ member ∈ members, IsProper member.2) → IsProper (.object members)

/-- At most so many lists and objects stand in each other, and no integer has more digits than a
reader takes. -/
inductive IsWithin : Nat → Json → Prop where
  | null {levels : Nat} : IsWithin levels .null
  | boolean {levels : Nat} {value : Bool} : IsWithin levels (.boolean value)
  | integer {levels : Nat} {value : Int} :
      (Double.decimalDigits value.natAbs).length ≤ Text.longestInteger →
      IsWithin levels (.integer value)
  | real {levels : Nat} {value : Double} : IsWithin levels (.real value)
  | text {levels : Nat} {value : Text} : IsWithin levels (.text value)
  | list {levels : Nat} {items : List Json} :
      (∀ item ∈ items, IsWithin levels item) → IsWithin (levels + 1) (.list items)
  | object {levels : Nat} {members : List (Text × Json)} :
      (∀ member ∈ members, IsWithin levels member.2) → IsWithin (levels + 1) (.object members)

/-- The same value, but for the order in which objects have their members. -/
inductive Alike : Json → Json → Prop where
  | refl (value : Json) : Alike value value
  | list {items others : List Json} :
      List.Forall₂ Alike items others → Alike (.list items) (.list others)
  | object {members others : List (Text × Json)} :
      (members.map Prod.fst).Perm (others.map Prod.fst) →
      (∀ member ∈ members, ∀ other ∈ others, member.1 = other.1 → Alike member.2 other.2) →
      Alike (.object members) (.object others)

section Sorting

variable {α β : Type} {members : List (Text × α)}

def onValue (change : α → β) (member : Text × α) : Text × β :=
  (member.1, change member.2)

theorem sortMembers_perm (members : List (Text × α)) : (sortMembers members).Perm members :=
  List.mergeSort_perm members _

theorem nodup_keys_sortMembers (distinct : (members.map Prod.fst).Nodup) :
    ((sortMembers members).map Prod.fst).Nodup :=
  ((sortMembers_perm members).map Prod.fst).nodup_iff.mpr distinct

/-- The order of members depends on their keys only. -/
theorem sortMembers_map (change : α → β) (members : List (Text × α)) :
    sortMembers (members.map (onValue change)) = (sortMembers members).map (onValue change) := by
  apply Eq.symm
  apply List.map_mergeSort
  intro left _ right _
  rfl

theorem keys_map (change : α → β) (members : List (Text × α)) :
    (members.map (onValue change)).map Prod.fst = members.map Prod.fst := by
  simp [onValue]

theorem lookup_onValue (change : α → β) (members : List (Text × α)) (key : Text) :
    (members.map (onValue change)).lookup key = (members.lookup key).map change := by
  induction members with
  | nil => rfl
  | cons member rest ih =>
      obtain ⟨other, value⟩ := member
      rw [List.map_cons, onValue, List.lookup_cons, List.lookup_cons, ih]
      cases key == other <;> rfl

theorem lookup_eq_some_iff (distinct : (members.map Prod.fst).Nodup) {key : Text} {value : α} :
    members.lookup key = some value ↔ (key, value) ∈ members := by
  induction members with
  | nil => simp
  | cons member rest ih =>
      obtain ⟨other, old⟩ := member
      rw [List.map_cons, List.nodup_cons] at distinct
      obtain ⟨isNew, distinct⟩ := distinct
      rw [List.lookup_cons]
      by_cases same : key = other
      · subst same
        have notBehind : (key, value) ∉ rest := by
          intro behind
          exact isNew (List.mem_map.mpr ⟨(key, value), behind, rfl⟩)
        simp [notBehind, eq_comm]
      · have differs : (key == other) = false := by simpa using same
        simp [differs, ih distinct, same]

/-- A member with a key of its own is found whatever the order of the members. -/
theorem lookup_sortMembers (distinct : (members.map Prod.fst).Nodup) (key : Text) :
    (sortMembers members).lookup key = members.lookup key := by
  apply Option.ext
  intro value
  rw [lookup_eq_some_iff distinct, lookup_eq_some_iff (nodup_keys_sortMembers distinct),
    (sortMembers_perm members).mem_iff]

end Sorting

mutual

/-- A value with the members of its objects in the order of their keys. -/
def sorted : Json → Json
  | .list items => .list (sortedItems items)
  | .object members => .object (sortMembers (sortedValues members))
  | value => value

def sortedItems : List Json → List Json
  | [] => []
  | item :: rest => sorted item :: sortedItems rest

def sortedValues : List (Text × Json) → List (Text × Json)
  | [] => []
  | (key, value) :: rest => (key, sorted value) :: sortedValues rest

end

theorem sortedItems_eq (items : List Json) : sortedItems items = items.map sorted := by
  induction items with
  | nil => rw [sortedItems, List.map_nil]
  | cons item rest ih => rw [sortedItems, ih, List.map_cons]

theorem sortedValues_eq (members : List (Text × Json)) :
    sortedValues members = members.map (onValue sorted) := by
  induction members with
  | nil => rw [sortedValues, List.map_nil]
  | cons member rest ih =>
      rw [sortedValues, ih, List.map_cons]
      rfl

theorem sorted_list (items : List Json) : sorted (.list items) = .list (items.map sorted) := by
  rw [sorted, sortedItems_eq]

theorem sorted_object (members : List (Text × Json)) :
    sorted (.object members) = .object ((sortMembers members).map (onValue sorted)) := by
  rw [sorted, sortedValues_eq, sortMembers_map]

theorem itemCharacters_eq (layout : Layout) (level : Nat) (items : List Json) :
    itemCharacters layout level items = items.map (characters layout level) := by
  induction items with
  | nil => rw [itemCharacters, List.map_nil]
  | cons item rest ih => rw [itemCharacters, ih, List.map_cons]

theorem valueCharacters_eq (layout : Layout) (level : Nat) (members : List (Text × Json)) :
    valueCharacters layout level members = members.map (onValue (characters layout level)) := by
  induction members with
  | nil => rw [valueCharacters, List.map_nil]
  | cons member rest ih =>
      rw [valueCharacters, ih, List.map_cons]
      rfl

theorem eq_of_mem_of_nodup {members : List (Text × Json)} (distinct : (members.map Prod.fst).Nodup)
    {left right : Text × Json} (inLeft : left ∈ members) (inRight : right ∈ members)
    (sameKey : left.1 = right.1) : left = right :=
  List.inj_on_of_nodup_map distinct inLeft inRight sameKey

theorem IsProper.alike_sorted {value : Json} (proper : value.IsProper) :
    Alike value value.sorted := by
  induction proper with
  | null => exact .refl _
  | boolean => exact .refl _
  | integer => exact .refl _
  | real => exact .refl _
  | text => exact .refl _
  | @list items _ ih =>
      rw [sorted_list]
      apply Alike.list
      exact List.forall₂_map_right_iff.mpr (List.forall₂_same.mpr ih)
  | @object members distinct _ _ ih =>
      rw [sorted_object]
      apply Alike.object
      · rw [keys_map]
        exact ((sortMembers_perm members).map Prod.fst).symm
      · intro member inMembers other inOthers sameKey
        obtain ⟨source, inSorted, rfl⟩ := List.mem_map.mp inOthers
        have inSource := (sortMembers_perm members).mem_iff.mp inSorted
        obtain rfl := eq_of_mem_of_nodup distinct inMembers inSource sameKey
        exact ih member inMembers

theorem IsProper.member?_sorted {value : Json} (proper : value.IsProper) (key : Text) :
    value.sorted.member? key = (value.member? key).map sorted := by
  cases proper with
  | null => rfl
  | boolean => rfl
  | integer => rfl
  | real => rfl
  | text => rfl
  | list => rfl
  | object distinct _ _ =>
      rw [sorted_object, member?, member?, lookup_onValue, lookup_sortMembers distinct]

end Json

end Reckon
