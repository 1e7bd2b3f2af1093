import Mathlib.Data.List.DropRight
import Reckon.Text.Blank

/-!
# Trimming

What trimming by a class of characters leaves: a run from the middle, with nothing of the class at
either end. What has nothing of the class at its ends stays as it is.
-/

set_option autoImplicit false

namespace Reckon.Text

variable {α : Type} {inClass : α → Bool} {items : List α}

/-- Nothing of a class stands at either end. -/
structure IsTrimmed (inClass : α → Bool) (items : List α) : Prop where
  first : ∀ item ∈ items.head?, inClass item = false
  last : ∀ item ∈ items.getLast?, inClass item = false

theorem dropWhile_eq_self_of_head (first : ∀ item ∈ items.head?, inClass item = false) :
    items.dropWhile inClass = items := by
  cases items with
  | nil => rfl
  | cons item rest => simp [first item rfl]

theorem IsTrimmed.trimBy_eq (trimmed : IsTrimmed inClass items) :
    trimBy inClass items = items := by
  have last : ∀ item ∈ items.reverse.head?, inClass item = false := by
    simpa using trimmed.last
  rw [trimBy, trimStartBy, dropWhile_eq_self_of_head trimmed.first, trimEndBy,
    dropWhile_eq_self_of_head last, List.reverse_reverse]

theorem trimBy_eq_self (outside : ∀ item ∈ items, inClass item = false) :
    trimBy inClass items = items := by
  apply IsTrimmed.trimBy_eq
  constructor
  · intro item isFirst
    exact outside item (List.mem_of_mem_head? isFirst)
  · intro item isLast
    exact outside item (List.mem_of_mem_getLast? isLast)

theorem trimBy_eq_nil (inside : ∀ item ∈ items, inClass item = true) :
    trimBy inClass items = [] := by
  rw [trimBy, trimStartBy, List.dropWhile_eq_nil_iff.mpr inside]
  rfl

theorem exists_of_trimBy (inClass : α → Bool) (items : List α) :
    ∃ trailing, items = items.takeWhile inClass ++ (trimBy inClass items ++ trailing) ∧
      ∀ item ∈ trailing, inClass item = true := by
  refine ⟨((items.dropWhile inClass).reverse.takeWhile inClass).reverse, ?_, ?_⟩
  · rw [trimBy, trimStartBy, trimEndBy, ← List.reverse_append, List.takeWhile_append_dropWhile,
      List.reverse_reverse, List.takeWhile_append_dropWhile]
  · intro item member
    exact List.mem_takeWhile_imp (List.mem_reverse.mp member)

theorem mem_of_mem_trimBy {item : α} (member : item ∈ trimBy inClass items) : item ∈ items := by
  obtain ⟨trailing, shape, -⟩ := exists_of_trimBy inClass items
  rw [shape]
  simp [member]

theorem isTrimmed_trimBy (inClass : α → Bool) (items : List α) :
    IsTrimmed inClass (trimBy inClass items) := by
  have trims : trimBy inClass items = (items.dropWhile inClass).rdropWhile inClass := rfl
  constructor
  · intro item isFirst
    obtain ⟨rest, shape⟩ := List.head?_eq_some_iff.mp isFirst
    obtain ⟨trailing, whole⟩ := List.rdropWhile_prefix inClass (items.dropWhile inClass)
    have head := List.head?_dropWhile_not inClass items
    rw [← whole, ← trims, shape] at head
    simpa using head
  · intro item isLast
    rw [trims] at isLast
    obtain ⟨some, rfl⟩ := List.mem_getLast?_eq_getLast isLast
    simpa using List.rdropWhile_last_not inClass (items.dropWhile inClass) some

end Reckon.Text
