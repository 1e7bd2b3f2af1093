import Reckon.Expressions
import Reckon.Proofs.FileLines
import Reckon.Proofs.Json.Characters
import Reckon.Proofs.Json.Limits
import Reckon.Proofs.Rows
import Reckon.Proofs.SavedFiles

/-!
# Files of rows

Rows that were saved are loaded again. What is written for a row is one line that is not blank, has
no blanks around it and no line end in it, so the rows can also be read from any text that has these
lines in order, whatever blank lines stand between them and however each line ends.
-/

set_option autoImplicit false

namespace Reckon.Rows

open Text (IsLineEnd isBlank physicalLines trimmed)

/-- An object that can be written and read: its texts are strings, it has no key twice, and it is
within the limits of the reader. -/
structure IsRow (row : Json) : Prop where
  isObject : ∃ members, row = .object members
  proper : row.IsProper
  within : row.IsWithin depthLimit

/-- What is read back of rows: each with its members in order, and no fault. -/
def readBack (rows : List Json) : Reading :=
  ⟨rows.map Json.sorted, none⟩

def linesOf (rows : List Json) : List (List Char) :=
  rows.map fun row => row.line.toList

section Lines

variable {row : Json}

/-- A line that is read as it stands: it is not blank, it has no blanks around it, and no character
in it ends a line. -/
structure IsPrinted (line : List Char) : Prop where
  nonempty : line ≠ []
  trimmed : trimmed line = line
  noFeed : '\n' ∉ line
  noReturn : '\r' ∉ line

theorem isPrinted_line (isRow : IsRow row) : IsPrinted row.line.toList := by
  obtain ⟨members, rfl⟩ := isRow.isObject
  have ascii := isRow.proper.allAscii 0
  have shape := Json.characters_object 0 members
  rw [Json.line, String.toList_ofList]
  constructor
  · rw [shape]
    simp
  · apply Text.IsTrimmed.trimBy_eq
    rw [shape]
    constructor
    · intro first isFirst
      obtain rfl : '\x7b' = first := by simpa using isFirst
      decide
    · intro last isLast
      rw [← List.cons_append, List.getLast?_concat] at isLast
      obtain rfl : '\x7d' = last := by simpa using isLast
      decide
  · exact fun feed => absurd (ascii '\n' feed) (by decide)
  · exact fun carriage => absurd (ascii '\r' carriage) (by decide)

theorem holdsObject_line (isRow : IsRow row) : HoldsObject row.line.toList row.sorted := by
  obtain ⟨members, rfl⟩ := isRow.isObject
  have reads := Json.readWithin_line isRow.proper isRow.within
  rw [Json.sorted_object] at reads ⊢
  exact ⟨_, rfl, reads⟩

end Lines

section Layouts

/-- The text of a line that nothing stands in. -/
def IsBlankLine (line : List Char) : Prop :=
  ∀ character ∈ line, isBlank character = true ∧ character ≠ '\n' ∧ character ≠ '\r'

/-- A text has lines in their order: each of them with an end of its own, and blank lines between
them, of which only one that comes last may lack its end. -/
inductive LaysOut : List (List Char) → List Char → Prop where
  | last {blank : List Char} : IsBlankLine blank → LaysOut [] blank
  | blank {blank ending rest : List Char} {lines : List (List Char)} :
      IsBlankLine blank → IsLineEnd ending → LaysOut lines rest →
      LaysOut lines (blank ++ (ending ++ rest))
  | line {line ending rest : List Char} {lines : List (List Char)} :
      IsLineEnd ending → LaysOut lines rest → LaysOut (line :: lines) (line ++ (ending ++ rest))

variable {ending line text : List Char} {lines : List (List Char)}

theorem filled?_blank (isBlankLine : IsBlankLine line) : filled? line = none := by
  rw [filled?, if_pos]
  exact Text.trimBy_eq_nil fun character member => (isBlankLine character member).1

theorem filledLines_blank (isBlankLine : IsBlankLine line) : filledLines line = [] := by
  have skips : filled? [] = none := filled?_blank (List.forall_mem_nil _)
  rw [filledLines, Text.readLines_line skips, filled?_blank isBlankLine]
  · rfl
  · intro character member
    simpa using (isBlankLine character member).2.1
  · exact fun member => (isBlankLine '\r' member).2.2 rfl

theorem filledLines_printed (printed : IsPrinted line) : filledLines line = [line] := by
  have skips : filled? [] = none := filled?_blank (List.forall_mem_nil _)
  rw [filledLines, Text.readLines_line skips _ printed.noReturn]
  · rw [filled?, printed.trimmed, if_neg printed.nonempty]
    rfl
  · intro character member
    have notFeed : character ≠ '\n' := fun same => printed.noFeed (same ▸ member)
    simpa using notFeed

theorem filledLines_end (isLineEnd : IsLineEnd ending) (front back : List Char) :
    filledLines (front ++ (ending ++ back)) = filledLines front ++ filledLines back :=
  Text.readLines_end rfl (filled?_blank (List.forall_mem_nil _)) isLineEnd front back

theorem LaysOut.filledLines_eq (lays : LaysOut lines text)
    (printed : ∀ line ∈ lines, IsPrinted line) : filledLines text = lines := by
  induction lays with
  | last isBlankLine => exact filledLines_blank isBlankLine
  | blank isBlankLine isLineEnd _ ih =>
      rw [filledLines_end isLineEnd, filledLines_blank isBlankLine, ih printed]
      rfl
  | line isLineEnd _ ih =>
      simp only [List.forall_mem_cons] at printed
      rw [filledLines_end isLineEnd, filledLines_printed printed.1, ih printed.2]
      rfl

end Layouts

section Reading

variable {rows : List Json} {text : String}

theorem read_of_laysOut (areRows : ∀ row ∈ rows, IsRow row)
    (lays : LaysOut (linesOf rows) text.toList) : read text = readBack rows := by
  have printed : ∀ line ∈ linesOf rows, IsPrinted line := by
    intro line member
    obtain ⟨row, inRows, rfl⟩ := List.mem_map.mp member
    exact isPrinted_line (areRows row inRows)
  have filled := lays.filledLines_eq printed
  apply ofLines_of_filled
  change List.Forall₂ _ (filledLines text.toList) _
  rw [filled, linesOf, List.forall₂_map_left_iff, List.forall₂_map_right_iff, List.forall₂_same]
  exact fun row inRows => holdsObject_line (areRows row inRows)

theorem write_cons (row : Json) (rows : List Json) :
    write (row :: rows) = row.line ++ "\n" ++ write rows := by
  simp [write, String.join_cons]

theorem toList_write (rows : List Json) :
    (write rows).toList = (linesOf rows).flatMap (· ++ ['\n']) := by
  induction rows with
  | nil => rfl
  | cons row rest ih => simp [write_cons, linesOf, ih]

theorem laysOut_write (rows : List Json) : LaysOut (linesOf rows) (write rows).toList := by
  rw [toList_write]
  induction linesOf rows with
  | nil => exact .last (List.forall_mem_nil _)
  | cons line rest ih =>
      rw [List.flatMap_cons, List.append_assoc]
      exact .line .feed ih

theorem foldl_add (rows : List Json) (written : Written) :
    rows.foldl Written.add written = ⟨written.count + rows.length, written.text ++ write rows⟩ := by
  induction rows generalizing written with
  | nil => simp [write]
  | cons row rest ih =>
      rw [List.foldl_cons, ih, write_cons, Written.add, List.length_cons, String.append_assoc,
        Nat.add_assoc, Nat.add_comm 1]

/-- Saving rows saves their text, and counts them. -/
theorem save_eq_ok_iff {files after : Files} {path : Text} {count : Nat} :
    save files path rows = .ok (count, after) ↔
      count = rows.length ∧ files.save path (write rows) = .ok after := by
  have added : rows.foldl Written.add ⟨0, ""⟩ = ⟨rows.length, write rows⟩ := by
    simpa using foldl_add rows ⟨0, ""⟩
  rw [save, added]
  cases files.save path (write rows) with
  | error fault => simp [bind, Except.bind]
  | ok other => simp [bind, Except.bind, pure, Except.pure, eq_comm]

end Reading

/-- What rows name is read of them whatever the order of their members. -/
theorem ofRows_sorted {rows : List Json} {expressions : List (Option Text)}
    (proper : ∀ row ∈ rows, row.IsProper)
    (named : rows.map (·.member? "expression") = expressions.map (·.map Json.text)) :
    Expressions.ofRows (rows.map Json.sorted) = expressions.reduceOption := by
  induction rows generalizing expressions with
  | nil =>
      cases expressions with
      | nil => rfl
      | cons => cases named
  | cons row rest ih =>
      cases expressions with
      | nil => cases named
      | cons expression others =>
          simp only [List.forall_mem_cons] at proper
          rw [List.map_cons, List.map_cons, List.cons.injEq] at named
          have goesOn := ih proper.2 named.2
          have first : row.sorted.member? "expression" = expression.map Json.text := by
            rw [proper.1.member?_sorted, named.1]
            cases expression <;> rfl
          unfold Expressions.ofRows at goesOn ⊢
          rw [List.map_cons]
          cases expression with
          | none =>
              rw [List.filterMap_cons_none (by rw [first]; rfl), goesOn]
              rfl
          | some text =>
              rw [List.filterMap_cons_some (by rw [first]; rfl), goesOn]
              rfl

/-- Rows are what is read of a text, in whatever file the text stands: the rows themselves, and from
a file of expressions those that they name, when all that they name are texts. -/
structure HoldsRows (text : String) (rows : List Json) : Prop where
  loads : ∀ (files : Files) (path : Text), files.content path = .ok (.text text) →
    load files path = .ok (readBack rows)
  names : ∀ (files : Files) (path : Text) (named : List (Option Text)),
    Path.extension? path = some Expressions.rowsExtension →
    files.content (Path.normal path) = .ok (.text text) →
    rows.map (·.member? "expression") = named.map (·.map Json.text) →
    Expressions.read files path = .ok named.reduceOption

theorem holdsRows_of_laysOut {rows : List Json} (areRows : ∀ row ∈ rows, IsRow row) {text : String}
    (lays : LaysOut (linesOf rows) text.toList) : HoldsRows text rows := by
  have reads := read_of_laysOut areRows lays
  constructor
  · intro files path holds
    rw [load_of_content holds, reads]
  · intro files path named isRows holds names
    have proper : ∀ row ∈ rows, row.IsProper := fun row inRows => (areRows row inRows).proper
    have content : Rows.ofContent (.text text) = readBack rows := reads
    rw [Expressions.read, if_pos isRows, holds]
    simp only [Except.mapError, bind, Except.bind, content]
    change Except.ok (Expressions.ofRows (rows.map Json.sorted)) = _
    rw [ofRows_sorted proper names]

/-- Rows survive a file. Where a file can be saved at all, saving rows there counts them, and the
file holds one line for each. Whatever text has these lines in order, with blank lines between them
and with any of the line ends, the same rows are loaded from it, each as the same object but for the
order of its members, and the expressions that they name are read from it. The rows are objects
within the limits of the reader, which are exactly those that it can read back. -/
theorem row_files_round_trip {rows : List Json} (areRows : ∀ row ∈ rows, IsRow row) {files : Files}
    {path : Text} (takes : files.TakesFile path) :
    (∀ row ∈ rows, Json.Alike row row.sorted) ∧
      (∃ after, save files path rows = .ok (rows.length, after) ∧
        after.content (Path.normal path) = .ok (.text (write rows)) ∧
        (∀ content, after.content path = .ok content → content = .text (write rows)) ∧
        load after (Path.normal path) = .ok (readBack rows)) ∧
      LaysOut (linesOf rows) (write rows).toList ∧
      (∀ text : String, LaysOut (linesOf rows) text.toList → HoldsRows text rows) ∧
      ∀ row : Json, row.IsProper →
        ((∃ back, Json.Alike row back ∧ Json.readWithin depthLimit row.line.toList = .ok back) ↔
          row.IsWithin depthLimit) := by
  have lays := laysOut_write rows
  have holds := holdsRows_of_laysOut areRows lays
  obtain ⟨after, saved⟩ : ∃ after, files.save path (write rows) = .ok after :=
    Files.exists_save_iff.mpr takes
  have content := Files.content_of_save saved
  refine ⟨?_, ⟨after, ?_, content, ?_, holds.loads after _ content⟩, lays, ?_, ?_⟩
  · exact fun row inRows => (areRows row inRows).proper.alike_sorted
  · exact save_eq_ok_iff.mpr ⟨rfl, saved⟩
  · exact fun content found => Files.eq_of_content_of_save saved found
  · exact fun text lays => holdsRows_of_laysOut areRows lays
  · exact fun row proper => Json.readWithin_line_iff proper

def twoRows : List Json :=
  [.object [("expression", .text "é + 1"), ("depth", .list [.integer 2, .real .nan])],
    .object [("comment", .null)]]

theorem twoRows_areRows : ∀ row ∈ twoRows, IsRow row := by
  have within : ∀ levels, Json.IsWithin levels (.integer 2) := fun _ => .integer (by decide)
  unfold twoRows
  simp only [List.forall_mem_cons]
  refine ⟨⟨⟨_, rfl⟩, ?_, ?_⟩, ⟨⟨_, rfl⟩, ?_, ?_⟩, List.forall_mem_nil _⟩
  · apply Json.IsProper.object
    · decide
    · simp only [List.forall_mem_cons]
      exact ⟨⟨_, rfl⟩, ⟨_, rfl⟩, List.forall_mem_nil _⟩
    · simp only [List.forall_mem_cons]
      refine ⟨.text ⟨_, rfl⟩, .list ?_, List.forall_mem_nil _⟩
      simp only [List.forall_mem_cons]
      exact ⟨.integer, .real, List.forall_mem_nil _⟩
  · apply Json.IsWithin.object
    simp only [List.forall_mem_cons]
    refine ⟨.text, .list ?_, List.forall_mem_nil _⟩
    simp only [List.forall_mem_cons]
    exact ⟨within _, .real, List.forall_mem_nil _⟩
  · apply Json.IsProper.object
    · decide
    · simp only [List.forall_mem_cons]
      exact ⟨⟨_, rfl⟩, List.forall_mem_nil _⟩
    · simp only [List.forall_mem_cons]
      exact ⟨.null, List.forall_mem_nil _⟩
  · apply Json.IsWithin.object
    simp only [List.forall_mem_cons]
    exact ⟨.null, List.forall_mem_nil _⟩

/-- Two rows in a new file, of which one names an expression. -/
theorem twoRows_round_trip :
    (∀ row ∈ twoRows, IsRow row) ∧ Files.empty.TakesFile "rows.jsonl" ∧
      ∃ after, save Files.empty "rows.jsonl" twoRows = .ok (2, after) ∧
        load after "rows.jsonl" = .ok (readBack twoRows) ∧
        Expressions.read after "rows.jsonl" = .ok ["é + 1"] := by
  have saves : (Files.empty.save "rows.jsonl" "").isOk = true := by decide +kernel
  have takes : Files.empty.TakesFile "rows.jsonl" := Files.exists_save_iff.mp (exists_of_isOk saves)
  have normal : Path.normal "rows.jsonl" = "rows.jsonl" := by decide +kernel
  have isRows : Path.extension? "rows.jsonl" = some Expressions.rowsExtension := by decide +kernel
  obtain ⟨-, ⟨after, saved, content, -, loaded⟩, lays, holds, -⟩ :=
    row_files_round_trip twoRows_areRows takes
  have named := (holds _ lays).names after "rows.jsonl" [some "é + 1", none] isRows content rfl
  rw [normal] at loaded
  exact ⟨twoRows_areRows, takes, after, saved, loaded, named⟩

end Reckon.Rows
