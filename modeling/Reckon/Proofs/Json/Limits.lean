import Reckon.Proofs.Json.RoundTrip
import Reckon.Proofs.Runs

/-!
# Limits of a reader

Whatever a reader of JSON returns is within its limits. So of what is written for values only those
within the limits can be read back.
-/

set_option autoImplicit false

namespace Reckon.Json

open Text (decimalValue isAsciiDigit)

section Numerals

variable {characters digits rest : List Char} {levels : Nat} {value : Json}

theorem digits_of_wholeDigits? (read : wholeDigits? characters = some (digits, rest)) :
    digits ≠ [] ∧ ∀ digit ∈ digits, isAsciiDigit digit = true := by
  unfold wholeDigits? at read
  split at read
  · obtain ⟨rfl, -⟩ := Prod.mk.inj (Option.some.inj read)
    simp [isAsciiDigit]
  · simp only at read
    split_ifs at read with none
    obtain ⟨rfl, -⟩ := Prod.mk.inj (Option.some.inj read)
    exact ⟨by simpa using none, fun digit => List.mem_takeWhile_imp⟩

theorem natAbs_signed (negative : Bool) (magnitude : Nat) :
    (if negative then -(magnitude : Int) else magnitude).natAbs = magnitude := by
  cases negative <;> simp

theorem isWithin_of_readNumber (read : readNumber characters = .ok (value, rest)) :
    IsWithin levels value := by
  unfold readNumber at read
  simp only at read
  split at read
  · cases read
  next whole after isWhole =>
    have areDigits := digits_of_wholeDigits? isWhole
    have shorter := Double.length_decimalDigits_le areDigits.1 areDigits.2
    split at read
    · split at read
      · cases read
      next notLong =>
        obtain ⟨rfl, -⟩ := Prod.mk.inj (Except.ok.inj read)
        apply IsWithin.integer
        rw [natAbs_signed]
        omega
    · obtain ⟨rfl, -⟩ := Prod.mk.inj (Except.ok.inj read)
      exact .real

theorem isWithin_of_readScalar (read : readScalar characters = .ok (value, rest)) :
    IsWithin levels value := by
  unfold readScalar at read
  split at read
  next word named found =>
    obtain ⟨rfl, -⟩ := Prod.mk.inj (Except.ok.inj read)
    have isWord := List.mem_of_find?_eq_some found
    simp only [words, List.mem_cons, Prod.mk.injEq, List.not_mem_nil, or_false] at isWord
    rcases isWord with ⟨-, rfl⟩ | ⟨-, rfl⟩ | ⟨-, rfl⟩ | ⟨-, rfl⟩ | ⟨-, rfl⟩ | ⟨-, rfl⟩
    · exact .null
    · exact .boolean
    · exact .boolean
    · exact .real
    · exact .real
    · exact .real
  next => exact isWithin_of_readNumber read

end Numerals

section Values

variable {levels : Nat}

theorem mem_setMember {α : Type} {key : Text} {value : α} {members : List (Text × α)}
    {member : Text × α} (inside : member ∈ setMember key value members) :
    member = (key, value) ∨ member ∈ members := by
  induction members with
  | nil => exact .inl (List.mem_singleton.mp inside)
  | cons first others ih =>
      obtain ⟨other, old⟩ := first
      rw [setMember] at inside
      split at inside
      · rcases List.mem_cons.mp inside with same | inOthers
        · exact .inl same
        · exact .inr (List.mem_cons_of_mem _ inOthers)
      · rcases List.mem_cons.mp inside with rfl | inRest
        · exact .inr List.mem_cons_self
        · rcases ih inRest with same | inOthers
          · exact .inl same
          · exact .inr (List.mem_cons_of_mem _ inOthers)

/-- What the readers of values, items and members return with a bound is within the limits. -/
structure StaysWithin (bound : Nat) : Prop where
  value : ∀ {levels characters value rest},
    readValue bound levels characters = .ok (value, rest) → IsWithin levels value
  items : ∀ {levels characters items rest},
    readItems bound levels characters = .ok (items, rest) → ∀ item ∈ items, IsWithin levels item
  members : ∀ {levels before characters members rest},
    readMembers bound levels before characters = .ok (members, rest) →
    (∀ member ∈ before, IsWithin levels member.2) → ∀ member ∈ members, IsWithin levels member.2

theorem staysWithin_zero : StaysWithin 0 where
  value := by
    intro levels characters value rest read
    rw [readValue] at read
    cases read
  items := by
    intro levels characters items rest read
    rw [readItems] at read
    cases read
  members := by
    intro levels before characters members rest read
    rw [readMembers] at read
    cases read

section Step

variable {bound : Nat} (stays : StaysWithin bound) {characters rest : List Char}
include stays

theorem StaysWithin.value_succ {value : Json}
    (read : readValue (bound + 1) levels characters = .ok (value, rest)) :
    IsWithin levels value := by
  rw [readValue.eq_def] at read
  simp only at read
  split at read
  · obtain ⟨⟨text, after⟩, -, done⟩ := except_bind_ok read
    cases done
    exact .text
  · cases read
  · split at read
    · cases read
      exact .list (List.forall_mem_nil _)
    · obtain ⟨⟨items, after⟩, readItems, done⟩ := except_bind_ok read
      cases done
      exact .list (stays.items readItems)
  · cases read
  · split at read
    · cases read
      exact .object (List.forall_mem_nil _)
    · obtain ⟨⟨members, after⟩, readMembers, done⟩ := except_bind_ok read
      cases done
      exact .object (stays.members readMembers (List.forall_mem_nil _))
  · exact isWithin_of_readScalar read

theorem StaysWithin.items_succ {items : List Json}
    (read : readItems (bound + 1) levels characters = .ok (items, rest)) :
    ∀ item ∈ items, IsWithin levels item := by
  rw [readItems] at read
  obtain ⟨⟨first, after⟩, readFirst, read⟩ := except_bind_ok read
  have firstWithin := stays.value readFirst
  simp only at read
  split at read
  · cases read
    simpa using firstWithin
  · obtain ⟨⟨others, behind⟩, readOthers, done⟩ := except_bind_ok read
    cases done
    exact List.forall_mem_cons.mpr ⟨firstWithin, stays.items readOthers⟩
  · cases read

theorem StaysWithin.members_succ {before members : List (Text × Json)}
    (read : readMembers (bound + 1) levels before characters = .ok (members, rest))
    (within : ∀ member ∈ before, IsWithin levels member.2) :
    ∀ member ∈ members, IsWithin levels member.2 := by
  rw [readMembers.eq_def] at read
  simp only at read
  split at read
  · obtain ⟨⟨key, after⟩, -, read⟩ := except_bind_ok read
    simp only at read
    split at read
    · obtain ⟨⟨value, behind⟩, readFirst, read⟩ := except_bind_ok read
      have firstWithin := stays.value readFirst
      have extended : ∀ member ∈ setMember key value before, IsWithin levels member.2 := by
        intro member inside
        rcases mem_setMember inside with rfl | inBefore
        · exact firstWithin
        · exact within member inBefore
      simp only at read
      split at read
      · cases read
        exact extended
      · exact stays.members read extended
      · cases read
    · cases read
  · cases read

end Step

theorem staysWithin (bound : Nat) : StaysWithin bound := by
  induction bound with
  | zero => exact staysWithin_zero
  | succ bound ih => exact ⟨ih.value_succ, ih.items_succ, ih.members_succ⟩

theorem isWithin_of_readWithin {characters : List Char} {value : Json}
    (read : readWithin levels characters = .ok value) : IsWithin levels value := by
  cases reads : readAll levels characters with
  | error stop =>
      rw [readWithin, reads] at read
      cases read
  | ok result =>
      rw [readWithin, reads] at read
      obtain rfl : result = value := Except.ok.inj read
      unfold readAll at reads
      split at reads
      · cases reads
      · obtain ⟨⟨other, rest⟩, readOther, done⟩ := except_bind_ok reads
        simp only at done
        split at done
        · cases done
          exact (staysWithin _).value readOther
        · cases done

/-- Limits do not depend on the order of members. -/
theorem IsWithin.of_alike {value other : Json} (within : IsWithin levels other)
    (alike : Alike value other) : IsWithin levels value := by
  induction within generalizing value with
  | null => cases alike; exact .null
  | boolean => cases alike; exact .boolean
  | integer short => cases alike; exact .integer short
  | real => cases alike; exact .real
  | text => cases alike; exact .text
  | list each ih =>
      cases alike with
      | refl => exact .list each
      | list same =>
          apply IsWithin.list
          intro item member
          obtain ⟨copy, inCopies, isAlike⟩ := exists_of_mem_forall₂ same member
          exact ih copy inCopies isAlike
  | object each ih =>
      cases alike with
      | refl => exact .object each
      | object sameKeys same =>
          apply IsWithin.object
          intro member inside
          have key := sameKeys.mem_iff.mp (List.mem_map_of_mem inside)
          obtain ⟨copy, inCopies, sameKey⟩ := List.mem_map.mp key
          exact ih copy inCopies (same member inside copy inCopies sameKey.symm)

/-- Reading inverts writing exactly for the values within the limits. -/
theorem readWithin_line_iff {value : Json} (proper : value.IsProper) :
    (∃ back, Alike value back ∧ readWithin levels value.line.toList = .ok back) ↔
      IsWithin levels value := by
  constructor
  · rintro ⟨back, alike, read⟩
    exact (isWithin_of_readWithin read).of_alike alike
  · intro within
    exact ⟨value.sorted, proper.alike_sorted, readWithin_line proper within⟩

end Values

end Reckon.Json
