import Reckon.Proofs.FileLines
import Reckon.Proofs.Runs
import Reckon.Proofs.Trimming
import Reckon.Rows

/-!
# Reading rows

What a file of rows is read as, line by line. Lines that are blank or hold a row never stop the
reading, so behind a text of such lines everything is read as it would be alone; only the lines are
counted on. Blank lines count for numbers, but not for rows.
-/

set_option autoImplicit false

namespace Reckon.Rows

open Text (IsClosed isBlank lineEnds physicalLines trimmed)

/-- A line that is blank, or holds an object between blanks. -/
def IsFine (line : List Char) : Prop :=
  (∀ character ∈ line, isBlank character = true) ∨
    ∃ members, Json.readWithin depthLimit (trimmed line) = .ok (.object members)

/-- A line holds an object and nothing else. -/
def HoldsObject (line : List Char) (row : Json) : Prop :=
  ∃ members, row = .object members ∧ Json.readWithin depthLimit line = .ok (.object members)

/-- Why a line holds no object: it cannot be read, or something else is read from it. -/
inductive IsBad (line : List Char) : Cause → Prop where
  | invalid {fault : Json.ReadFault} : Json.readWithin depthLimit line = .error fault →
      IsBad line (.invalid fault)
  | notAnObject {value : Json} : Json.readWithin depthLimit line = .ok value →
      (∀ members, value ≠ .object members) → IsBad line .notAnObject

/-- A line without the blanks around it, when something is left. -/
def filled? (line : List Char) : Option (List Char) :=
  if trimmed line = [] then none else some (trimmed line)

/-- The lines of a text in which something stands. -/
def filledLines (text : List Char) : List (List Char) :=
  Text.readLines (· == '\n') filled? text

/-- The same fault, so many lines further down. -/
def Fault.below (count : Nat) : Fault → Fault
  | .atLine number cause => .atLine (number + count) cause
  | .undecodable => .undecodable

/-- Whether the wording of a fault names the line. -/
def Cause.namesLine : Cause → Bool
  | .invalid (.malformed _ _ _ _) => true
  | .invalid _ => false
  | .notAnObject => true

/-- The wording of a fault without the place. -/
def Cause.detail : Cause → Text
  | .invalid (.malformed cause position line column) =>
    "invalid json: " ++ (Json.ReadFault.malformed cause position line column).message
  | .invalid other => other.message
  | .notAnObject => "expected an object row"

section Wording

variable {path : Text} {number : Nat} {cause : Cause}

theorem message_of_namesLine (names : cause.namesLine = true) :
    (Fault.atLine number cause).message path =
      path ++ ":" ++ toString number ++ ": " ++ cause.detail := by
  cases cause with
  | notAnObject => rfl
  | invalid fault =>
      cases fault with
      | malformed cause position line column =>
          apply Text.ext
          simp [Fault.message, Cause.detail]
      | tooManyDigits count => cases names
      | tooDeep => cases names

theorem message_of_not_namesLine (anonymous : cause.namesLine = false) :
    (Fault.atLine number cause).message path = cause.detail := by
  cases cause with
  | notAnObject => cases anonymous
  | invalid fault =>
      cases fault with
      | malformed cause position line column => cases anonymous
      | tooManyDigits count => rfl
      | tooDeep => rfl

end Wording

section Lines

variable {number : Nat} {line : List Char} {front back lines : List (List Char)} {row : Json}
variable {rows : List Json} {cause : Cause}

theorem ofLine_eq_ok_iff : ofLine line = .ok row ↔ HoldsObject line row := by
  unfold ofLine HoldsObject
  cases Json.readWithin depthLimit line with
  | error fault => simp
  | ok value => cases value <;> simp [eq_comm]

theorem ofLine_of_isBad (bad : IsBad line cause) : ofLine line = .error cause := by
  cases bad with
  | invalid unread => rw [ofLine, unread]
  | notAnObject reads other =>
      rw [ofLine, reads]
      split
      · contradiction
      next same => exact absurd (Except.ok.inj same) (other _)
      · rfl

theorem isFine_of_isOk (isRow : (ofLine (trimmed line)).isOk = true) : IsFine line := by
  obtain ⟨row, isRow⟩ := exists_of_isOk isRow
  obtain ⟨members, -, reads⟩ := ofLine_eq_ok_iff.mp isRow
  exact .inr ⟨members, reads⟩

theorem ofLines_blank (blank : trimmed line = []) :
    ofLines number (line :: lines) = ofLines (number + 1) lines := by
  simp only [ofLines, blank]

theorem ofLines_row (some : trimmed line ≠ []) (isRow : ofLine (trimmed line) = .ok row) :
    ofLines number (line :: lines) =
      ⟨row :: (ofLines (number + 1) lines).rows, (ofLines (number + 1) lines).fault?⟩ := by
  rw [ofLines]
  split
  next blank => exact absurd blank some
  next => rw [isRow]

theorem ofLines_fault (some : trimmed line ≠ []) (failed : ofLine (trimmed line) = .error cause) :
    ofLines number (line :: lines) = ⟨[], .some (.atLine number cause)⟩ := by
  rw [ofLines]
  split
  next blank => exact absurd blank some
  next => rw [failed]

/-- The rows in lines do not depend on how the lines are numbered. -/
theorem ofLines_add (number count : Nat) (lines : List (List Char)) :
    ofLines (number + count) lines =
      ⟨(ofLines number lines).rows, (ofLines number lines).fault?.map (Fault.below count)⟩ := by
  induction lines generalizing number with
  | nil => rfl
  | cons line rest ih =>
      have next := ih (number + 1)
      rw [Nat.add_right_comm] at next
      by_cases blank : trimmed line = []
      · rw [ofLines_blank blank, ofLines_blank blank, next]
      · cases result : ofLine (trimmed line) with
        | error cause =>
            rw [ofLines_fault blank result, ofLines_fault blank result]
            rfl
        | ok row => rw [ofLines_row blank result, ofLines_row blank result, next]

theorem ofLines_append (fine : (ofLines number front).fault? = none) :
    ofLines number (front ++ back) =
      ⟨(ofLines number front).rows ++ (ofLines (number + front.length) back).rows,
        (ofLines (number + front.length) back).fault?⟩ := by
  induction front generalizing number with
  | nil => rfl
  | cons line rest ih =>
      have length : number + (line :: rest).length = number + 1 + rest.length := by
        rw [List.length_cons]
        omega
      rw [List.cons_append, length]
      by_cases blank : trimmed line = []
      · rw [ofLines_blank blank] at fine ⊢
        rw [ofLines_blank blank, ih fine]
      · cases result : ofLine (trimmed line) with
        | error cause =>
            rw [ofLines_fault blank result] at fine
            cases fine
        | ok row =>
            rw [ofLines_row blank result] at fine ⊢
            rw [ofLines_row blank result, ih fine]
            rfl

theorem ofLines_of_filled
    (each : List.Forall₂ HoldsObject (lines.filterMap filled?) rows) :
    ofLines number lines = ⟨rows, none⟩ := by
  induction lines generalizing number rows with
  | nil =>
      cases each
      rfl
  | cons line rest ih =>
      by_cases blank : trimmed line = []
      · rw [List.filterMap_cons_none (by rw [filled?, if_pos blank])] at each
        rw [ofLines_blank blank, ih each]
      · rw [List.filterMap_cons_some (by rw [filled?, if_neg blank])] at each
        cases each with
        | cons first others => rw [ofLines_row blank (ofLine_eq_ok_iff.mpr first), ih others]

theorem exists_rows_of_fine (fine : ∀ line ∈ lines, IsFine line) :
    ∃ rows, List.Forall₂ HoldsObject (lines.filterMap filled?) rows := by
  induction lines with
  | nil => exact ⟨[], .nil⟩
  | cons line rest ih =>
      simp only [List.mem_cons, forall_eq_or_imp] at fine
      obtain ⟨rows, each⟩ := ih fine.2
      by_cases blank : trimmed line = []
      · rw [List.filterMap_cons_none (by rw [filled?, if_pos blank])]
        exact ⟨rows, each⟩
      · rw [List.filterMap_cons_some (by rw [filled?, if_neg blank])]
        rcases fine.1 with allBlank | ⟨members, reads⟩
        · exact absurd (Text.trimBy_eq_nil allBlank) blank
        · exact ⟨.object members :: rows, .cons ⟨members, rfl, reads⟩ each⟩

end Lines

theorem load_of_content {files : Files} {path : Text} {text : String}
    (holds : files.content path = .ok (.text text)) : load files path = .ok (read text) := by
  rw [load, holds]
  rfl

theorem read_of_isBad {line rest : String} {cause : Cause} (noFeed : '\n' ∉ line.toList)
    (noReturn : '\r' ∉ line.toList) (some : trimmed line.toList ≠ [])
    (bad : IsBad (trimmed line.toList) cause) :
    read (line ++ ("\n" ++ rest)) = ⟨[], .some (.atLine 1 cause)⟩ := by
  have shape : (line ++ ("\n" ++ rest)).toList = line.toList ++ '\n' :: rest.toList := by simp
  rw [read, shape, Text.physicalLines_line noFeed noReturn]
  exact ofLines_fault some (ofLine_of_isBad bad)

/-- A text of lines that are blank or hold a row, and anything behind it. The rows of the text in
front are the objects in its lines that are not blank, in order, and the rows of the whole are those
and then the ones that the rest has alone. A fault of the rest stays the same fault, but as many
lines further down as the text in front has line ends, blank lines included; where its wording names
the line, that number is all that changes in it. So a line right behind the text in front that holds
no object ends the reading with the rows in front of it, and the fault has the number of that
line. -/
theorem reading_goes_on_behind_rows {front : String}
    (closed : front = "" ∨ ∃ before, front = before ++ "\n")
    (fine : ∀ line ∈ physicalLines front.toList, IsFine line) (back : String) :
    (∀ (files : Files) (path : Text), files.content path = .ok (.text (front ++ back)) →
        load files path = .ok (read (front ++ back))) ∧
      List.Forall₂ HoldsObject (filledLines front.toList) (read front).rows ∧
      (read front).fault? = none ∧
      (read (front ++ back)).rows = (read front).rows ++ (read back).rows ∧
      (read (front ++ back)).fault? =
        (read back).fault?.map (Fault.below (lineEnds front.toList)) ∧
      (physicalLines front.toList).length = lineEnds front.toList ∧
      (∀ (path : Text) (number : Nat) (cause : Cause),
        (read back).fault? = some (.atLine number cause) →
        ∃ fault, (read (front ++ back)).fault? = some fault ∧
          (cause.namesLine = true →
            (Fault.atLine number cause).message path =
                path ++ ":" ++ toString number ++ ": " ++ cause.detail ∧
              fault.message path =
                path ++ ":" ++ toString (number + lineEnds front.toList) ++ ": " ++ cause.detail) ∧
          (cause.namesLine = false →
            fault.message path = (Fault.atLine number cause).message path)) ∧
      ∀ (line rest : String) (cause : Cause), '\n' ∉ line.toList → '\r' ∉ line.toList →
        trimmed line.toList ≠ [] → IsBad (trimmed line.toList) cause →
        read (front ++ (line ++ ("\n" ++ rest))) =
          ⟨(read front).rows, some (.atLine (1 + lineEnds front.toList) cause)⟩ := by
  have isClosed : IsClosed (· == '\n') front.toList := by
    rcases closed with rfl | ⟨before, rfl⟩
    · intro last none
      cases none
    · intro last isLast
      obtain rfl : '\n' = last := by simpa using isLast
      rfl
  have length := Text.length_physicalLines isClosed
  obtain ⟨rows, each⟩ := exists_rows_of_fine fine
  have atFront : read front = ⟨rows, none⟩ := ofLines_of_filled each
  have noFault : (read front).fault? = none := congrArg Reading.fault? atFront
  have whole (back : String) : read (front ++ back) =
      ⟨(read front).rows ++ (read back).rows,
        (read back).fault?.map (Fault.below (lineEnds front.toList))⟩ := by
    rw [read, String.toList_append, Text.physicalLines_append isClosed, ofLines_append noFault,
      length, ofLines_add]
    rfl
  have rowsInFront : List.Forall₂ HoldsObject (filledLines front.toList) (read front).rows := by
    rw [atFront]
    exact each
  refine ⟨fun files path => load_of_content, rowsInFront, noFault, by rw [whole], by rw [whole],
    length, ?_, ?_⟩
  · intro path number cause failed
    refine ⟨.atLine (number + lineEnds front.toList) cause, by rw [whole, failed]; rfl, ?_, ?_⟩
    · intro names
      exact ⟨message_of_namesLine names, message_of_namesLine names⟩
    · intro anonymous
      rw [message_of_not_namesLine anonymous, message_of_not_namesLine anonymous]
  · intro line rest cause noFeed noReturn filled bad
    rw [whole, read_of_isBad noFeed noReturn filled bad, List.append_nil]
    rfl

def twoObjects : String :=
  "\x7b\"a\": 1\x7d\r\n \x0b\n\x7b\x7d\n"

theorem list_behind_twoObjects :
    (∀ line ∈ physicalLines twoObjects.toList, IsFine line) ∧
      List.Forall₂ HoldsObject ["\x7b\"a\": 1\x7d".toList, "\x7b\x7d".toList]
        (read twoObjects).rows ∧
      (read "\r[1]").fault? = some (.atLine 2 .notAnObject) ∧
      (read (twoObjects ++ "\r[1]")).rows.map Json.line = ["\x7b\"a\": 1\x7d", "\x7b\x7d"] ∧
      (read (twoObjects ++ "\r[1]")).fault? = some (.atLine 5 .notAnObject) ∧
      read (twoObjects ++ "[1]\n") =
        ⟨(read twoObjects).rows, some (.atLine 4 .notAnObject)⟩ := by
  have lines : physicalLines twoObjects.toList =
      ["\x7b\"a\": 1\x7d".toList, " \x0b".toList, "\x7b\x7d".toList] := by decide +kernel
  have filled : filledLines twoObjects.toList =
      ["\x7b\"a\": 1\x7d".toList, "\x7b\x7d".toList] := by decide +kernel
  have fine : ∀ line ∈ physicalLines twoObjects.toList, IsFine line := by
    rw [lines]
    simp only [List.forall_mem_cons]
    exact ⟨isFine_of_isOk (by decide +kernel), .inl (List.all_eq_true.mp (by decide +kernel)),
      isFine_of_isOk (by decide +kernel), by simp⟩
  have shown : (read twoObjects).rows.map Json.line = ["\x7b\"a\": 1\x7d", "\x7b\x7d"] := by
    decide +kernel
  have noneAlone : (read "\r[1]").rows.map Json.line = [] := by decide +kernel
  have alone : (read "\r[1]").fault? = some (.atLine 2 .notAnObject) := by decide +kernel
  have ends : lineEnds twoObjects.toList = 3 := by decide +kernel
  obtain ⟨-, inFront, -, rowsBehind, faultBehind, -, -, atBad⟩ := reading_goes_on_behind_rows
    (.inr ⟨"\x7b\"a\": 1\x7d\r\n \x0b\n\x7b\x7d", by decide +kernel⟩) fine "\r[1]"
  have bad : IsBad "[1]".toList .notAnObject := by
    have isRead : (Json.readWithin depthLimit "[1]".toList).isOk = true := by decide +kernel
    have noRow : (ofLine "[1]".toList).isOk = false := by decide +kernel
    obtain ⟨value, reads⟩ := exists_of_isOk isRead
    refine .notAnObject reads fun members isObject => ?_
    rw [ofLine_eq_ok_iff.mpr ⟨members, rfl, isObject ▸ reads⟩] at noRow
    cases noRow
  refine ⟨fine, filled ▸ inFront, alone, ?_, ?_, ?_⟩
  · rw [rowsBehind, List.map_append, shown, noneAlone, List.append_nil]
  · rw [faultBehind, alone, ends]
    rfl
  · have stops := atBad "[1]" "" .notAnObject (by decide) (by decide) (by decide +kernel) bad
    rwa [ends] at stops

end Reckon.Rows
