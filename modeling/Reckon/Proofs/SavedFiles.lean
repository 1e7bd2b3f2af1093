import Mathlib.Data.List.Basic
import Reckon.Files
import Reckon.Proofs.Runs

/-!
# Saved files

What is at a path after a text was saved there. A text is saved when the directory of the path is
there or can be made and no directory stands in the place of the file, whatever the text is. It is
then what the path in its normal form holds, and what any form of the path holds that leads to a
file at all.
-/

set_option autoImplicit false

namespace Reckon

section Parts

variable {α : Type} [DecidableEq α]

theorem Text.partsAt_eq_splitOn (mark : α) (items : List α) :
    partsAt mark items = items.splitOn mark := by
  induction items with
  | nil => rfl
  | cons item rest ih =>
      rw [List.splitOn_cons_eq_if_modifyHead, partsAt, ih]
      simp only [beq_iff_eq]
      split
      · rfl
      · cases shape : rest.splitOn mark with
        | nil => exact absurd shape (List.splitOn_ne_nil _ _)
        | cons part more => rfl

theorem Text.mark_notMem_of_mem_partsAt {mark : α} {items part : List α}
    (member : part ∈ partsAt mark items) : mark ∉ part := by
  induction items generalizing part with
  | nil =>
      rw [partsAt, List.mem_singleton] at member
      simp [member]
  | cons item rest ih =>
      rw [partsAt] at member
      split at member
      · rcases List.mem_cons.mp member with rfl | inRest
        · simp
        · exact ih inRest
      next notMark =>
        split at member
        · rw [List.mem_singleton] at member
          simpa [member] using Ne.symm notMark
        next first more shape =>
          rcases List.mem_cons.mp member with rfl | inMore
          · have inFirst := ih (shape ▸ List.mem_cons_self)
            simpa [inFirst] using Ne.symm notMark
          · exact ih (shape ▸ List.mem_cons_of_mem first inMore)

end Parts

namespace Path

section Forms

variable {path name : Text} {parts : List Text}

theorem names_intercalate (some : parts ≠ [])
    (noSlash : ∀ part ∈ parts, Glyph.whole '/' ∉ part.toList) :
    names (Text.intercalate "/" parts) = parts := by
  have split : (['/'].map Glyph.whole).intercalate (parts.map Text.toList) =
      [Glyph.whole '/'].intercalate (parts.map Text.toList) := rfl
  have each : ∀ glyphs ∈ parts.map Text.toList, Glyph.whole '/' ∉ glyphs := by
    intro glyphs member
    obtain ⟨part, inParts, rfl⟩ := List.mem_map.mp member
    exact noSlash part inParts
  change (Text.partsAt (Glyph.whole '/')
    ([Glyph.whole '/'].intercalate (parts.map Text.toList))).map Text.mk = parts
  rw [Text.partsAt_eq_splitOn, List.splitOn_intercalate _ each (by simpa using some), List.map_map]
  exact List.map_id parts

theorem names_root_append (path : Text) : names (root ++ path) = ("" : Text) :: names path := rfl

theorem slash_notMem_of_mem_names (member : name ∈ names path) :
    Glyph.whole '/' ∉ name.toList := by
  obtain ⟨part, inParts, rfl⟩ := List.mem_map.mp member
  exact Text.mark_notMem_of_mem_partsAt inParts

/-- Names that are not shown lead nowhere. -/
theorem foldl_next_shown (path : Text) (location : Location) :
    (shownNames path).foldl next location = (names path).foldl next location := by
  unfold shownNames
  induction names path generalizing location with
  | nil => rfl
  | cons name rest ih =>
      rw [List.filter_cons]
      split
      · exact ih (next location name)
      next hidden =>
        have stays : next location name = location := by
          unfold next
          apply if_pos
          simpa [Classical.or_iff_not_imp_left] using hidden
        rw [List.foldl_cons, stays, ih]

theorem isAbsolute_intercalate {part : Text} (someGlyph : part ≠ ("" : Text))
    (noSlash : Glyph.whole '/' ∉ part.toList) (others : List Text) :
    isAbsolute (Text.intercalate "/" (part :: others)) = false := by
  obtain ⟨first, rest, shape⟩ : ∃ first rest, part.toList = first :: rest := by
    apply List.exists_cons_of_ne_nil
    exact fun none => someGlyph (Text.ext none)
  have notSlash : first ≠ Glyph.whole '/' := by
    rintro rfl
    exact noSlash (shape ▸ List.mem_cons_self)
  have head : (Text.intercalate "/" (part :: others)).toList.head? = some first := by
    cases others with
    | nil => simp [Text.intercalate, List.intercalate_singleton, shape]
    | cons next more => simp [Text.intercalate, List.intercalate_cons_cons, shape]
  rw [isAbsolute, head]
  simpa using notSlash

/-- What a path is joined of leads on from where the path starts. -/
theorem location_joined (noSlash : ∀ part ∈ parts, Glyph.whole '/' ∉ part.toList)
    (someGlyph : ∀ part ∈ parts, part ≠ ("" : Text)) (path : Text) :
    location (joined path parts) = parts.foldl next (start path) := by
  cases parts with
  | nil => cases absolute : isAbsolute path <;> simp only [joined, start, absolute] <;> rfl
  | cons part others =>
      have names := names_intercalate (List.cons_ne_nil part others) noSlash
      cases absolute : isAbsolute path with
      | true =>
          have shape : joined path (part :: others) =
              root ++ Text.intercalate "/" (part :: others) := by
            simp only [joined, absolute]
            rfl
          rw [shape, location, names_root_append, names, start, start, absolute]
          rfl
      | false =>
          have shape : joined path (part :: others) = Text.intercalate "/" (part :: others) := by
            simp only [joined, absolute]
            rfl
          have relative := isAbsolute_intercalate (someGlyph part List.mem_cons_self)
            (noSlash part List.mem_cons_self) others
          rw [shape, location, names, start, start, absolute, relative]

theorem location_normal (path : Text) : location (normal path) = location path := by
  have noSlash : ∀ name ∈ shownNames path, Glyph.whole '/' ∉ name.toList := by
    intro name member
    exact slash_notMem_of_mem_names (List.mem_of_mem_filter member)
  have someGlyph : ∀ name ∈ shownNames path, name ≠ ("" : Text) := by
    intro name member
    have isShown := List.of_mem_filter member
    simp only [Bool.and_eq_true, bne_iff_ne] at isShown
    exact isShown.1
  rw [normal, location_joined noSlash someGlyph, foldl_next_shown]
  rfl

end Forms

/-- A path that can be looked up: it is not empty and not too long, and everything in it can stand
in a path. -/
structure IsSound (path : Text) : Prop where
  encodable : ∀ glyph ∈ path.toList, isEncodable glyph = true
  noNul : Glyph.whole '\x00' ∉ path.toList
  nonempty : path.isEmpty = false
  short : byteSize path < pathLimit

end Path

namespace Files

section Walks

variable {files after : Files} {location final : Location} {names : List Text} {path : Text}
variable {content : Content}

theorem walk_reached (reached : files.walk location names = .reached final) :
    final = names.foldl Path.next location := by
  induction names generalizing location with
  | nil =>
      rw [walk] at reached
      exact (Walk.reached.inj reached).symm
  | cons name rest ih =>
      rw [walk] at reached
      split_ifs at reached
      exact ih reached

/-- A walk that comes to its end does so wherever the same directories are. -/
theorem walk_of_directories
    (kept : ∀ place, files.isDirectory place = true → after.isDirectory place = true)
    (reached : files.walk location names = .reached final) :
    after.walk location names = .reached final := by
  induction names generalizing location with
  | nil => exact reached
  | cons name rest ih =>
      rw [walk] at reached ⊢
      split_ifs at reached with isDirectory isLong
      rw [if_pos (kept location isDirectory), if_neg isLong]
      exact ih reached

end Walks

section Contents

variable {files : Files} {location : Location} {content : Content}
variable {contents : List (Location × Content)}

theorem lookup_setContent (location : Location) (content : Content)
    (contents : List (Location × Content)) :
    (setContent location content contents).lookup location = some content := by
  induction contents with
  | nil => simp [setContent]
  | cons file rest ih =>
      obtain ⟨other, old⟩ := file
      rw [setContent]
      split
      · simp
      next differs =>
        have differs : (location == other) = false := by
          simpa using Ne.symm (by simpa using differs)
        rw [List.lookup_cons, differs, ih]

theorem location_mem_setContent {file : Location × Content} (member : file ∈ contents)
    (location : Location) (content : Content) :
    ∃ other ∈ setContent location content contents, other.1 = file.1 := by
  induction contents with
  | nil => cases member
  | cons first rest ih =>
      obtain ⟨other, old⟩ := first
      rw [setContent]
      split
      next same =>
        rcases List.mem_cons.mp member with rfl | inRest
        · exact ⟨_, List.mem_cons_self, by simpa using Eq.symm (by simpa using same)⟩
        · exact ⟨file, List.mem_cons_of_mem _ inRest, rfl⟩
      next =>
        rcases List.mem_cons.mp member with rfl | inRest
        · exact ⟨_, List.mem_cons_self, rfl⟩
        · obtain ⟨found, inside, same⟩ := ih inRest
          exact ⟨found, List.mem_cons_of_mem _ inside, same⟩

def withContent (files : Files) (location : Location) (content : Content) : Files :=
  { files with contents := setContent location content files.contents }

/-- A file that is written leaves every directory a directory. -/
theorem isDirectory_withContent {place : Location} (before : files.isDirectory place = true)
    (location : Location) (content : Content) :
    (files.withContent location content).isDirectory place = true := by
  unfold isDirectory at before ⊢
  rw [Bool.or_eq_true] at before ⊢
  rcases before with known | above
  · exact .inl known
  · obtain ⟨file, member, isAbove⟩ := List.any_eq_true.mp above
    obtain ⟨found, inside, same⟩ := location_mem_setContent member location content
    refine .inr (List.any_eq_true.mpr ⟨found, inside, ?_⟩)
    rwa [same]

end Contents

section Entries

variable {files : Files} {path : Text} {entry : Entry} {content : Content} {location : Location}

/-- The end of a path is reached, and a file is there or can be put there. -/
inductive Entry.IsPlace : Entry → Prop where
  | file {content : Content} : IsPlace (.file content)
  | free {location : Location} : IsPlace (.free location)

theorem entry_of_reached (sound : Path.IsSound path)
    (reached : files.walk (Path.start path) (Path.names path) = .reached location) :
    files.entry path =
      ((files.contents.lookup location).map fun content => .ok (.file content)).getD
        (.ok (if files.isDirectory location then .directory else .free location)) := by
  unfold Files.entry
  rw [if_neg (by simpa using sound.encodable), if_neg (by simpa using sound.noNul),
    if_neg (by simp [sound.nonempty]), if_neg (Nat.not_le.mpr sound.short), reached]
  simp only
  cases files.contents.lookup location with
  | none => rfl
  | some content => rfl

theorem reached_of_place (found : files.entry path = .ok entry) (isPlace : entry.IsPlace) :
    Path.IsSound path ∧
      files.walk (Path.start path) (Path.names path) = .reached (Path.location path) := by
  unfold Files.entry at found
  split_ifs at found with encodable nul empty long
  · cases found
    cases isPlace
  · cases walked : files.walk (Path.start path) (Path.names path) with
    | tooLong =>
        rw [walked] at found
        cases found
    | blocked =>
        rw [walked] at found
        cases found
    | absent location names =>
        rw [walked] at found
        cases found
        cases isPlace
    | reached location =>
        rw [walk_reached walked]
        refine ⟨⟨?_, ?_, ?_, ?_⟩, rfl⟩
        · simpa using encodable
        · simpa using nul
        · simpa using empty
        · exact Nat.not_le.mp long

theorem content_eq_ok_iff :
    files.content path = .ok content ↔ files.entry path = .ok (.file content) := by
  unfold Files.content
  cases files.entry path with
  | error fault => simp [bind, Except.bind]
  | ok entry => cases entry <;> simp [bind, Except.bind, pure, Except.pure]

/-- What a path holds is what lies where it leads. -/
theorem lookup_of_content (holds : files.content path = .ok content) :
    files.contents.lookup (Path.location path) = some content := by
  have found := content_eq_ok_iff.mp holds
  obtain ⟨sound, reached⟩ := reached_of_place found .file
  rw [entry_of_reached sound reached] at found
  cases lies : files.contents.lookup (Path.location path) with
  | some other =>
      rw [lies] at found
      cases found
      rfl
  | none =>
      rw [lies] at found
      simp only [Option.map_none, Option.getD_none] at found
      split at found
      · cases found
      · cases found

theorem write_eq_ok_iff {text : String} {after : Files} :
    files.write path text = .ok after ↔
      (∃ entry, files.entry path = .ok entry ∧ entry.IsPlace) ∧
        files.withContent (Path.location path) (.text text) = after := by
  have notDirectory : ¬ Entry.directory.IsPlace := by
    intro isPlace
    cases isPlace
  have notAbsent : ∀ location names, ¬ (Entry.absent location names).IsPlace := by
    intro location names isPlace
    cases isPlace
  unfold Files.write withContent
  cases files.entry path with
  | error fault => simp [bind, Except.bind]
  | ok entry =>
      cases entry with
      | file content => simp [bind, Except.bind, pure, Except.pure, Entry.IsPlace.file]
      | directory => simp [bind, Except.bind, notDirectory]
      | free location => simp [bind, Except.bind, pure, Except.pure, Entry.IsPlace.free]
      | absent location names => simp [bind, Except.bind, notAbsent]

/-- What was written to a path is what the path holds. -/
theorem content_of_write {text : String} {after : Files}
    (written : files.write path text = .ok after) :
    after.content path = .ok (.text text) ∧
      after.contents.lookup (Path.location path) = some (.text text) := by
  obtain ⟨⟨entry, found, isPlace⟩, rfl⟩ := write_eq_ok_iff.mp written
  obtain ⟨sound, reached⟩ := reached_of_place found isPlace
  have stays := walk_of_directories
    (fun _ before => isDirectory_withContent before (Path.location path) (.text text)) reached
  have holds : (files.withContent (Path.location path) (.text text)).contents.lookup
      (Path.location path) = some (.text text) := lookup_setContent _ _ _
  refine ⟨content_eq_ok_iff.mpr ?_, holds⟩
  rw [entry_of_reached sound stays, holds]
  rfl

end Entries

section Saving

variable {files after : Files} {path : Text} {text : String} {content : Content}

/-- A file can be saved at a path: the directory of the path is there or can be made, and the path
does not lead to a directory. -/
def TakesFile (files : Files) (path : Text) : Prop :=
  ∃ prepared entry, files.makeDirectories (Path.parent path) = .ok prepared ∧
    prepared.entry (Path.normal path) = .ok entry ∧ entry.IsPlace

/-- Whether a text can be saved does not depend on the text. -/
theorem exists_save_iff : (∃ after, files.save path text = .ok after) ↔ files.TakesFile path := by
  constructor
  · rintro ⟨after, saved⟩
    obtain ⟨prepared, made, written⟩ := except_bind_ok saved
    obtain ⟨⟨entry, found, isPlace⟩, -⟩ := write_eq_ok_iff.mp written
    exact ⟨prepared, entry, made, found, isPlace⟩
  · rintro ⟨prepared, entry, made, found, isPlace⟩
    refine ⟨prepared.withContent (Path.location (Path.normal path)) (.text text), ?_⟩
    rw [save, made]
    exact write_eq_ok_iff.mpr ⟨⟨entry, found, isPlace⟩, rfl⟩

theorem content_of_save (saved : files.save path text = .ok after) :
    after.content (Path.normal path) = .ok (.text text) := by
  obtain ⟨prepared, -, written⟩ := except_bind_ok saved
  exact (content_of_write written).1

/-- Whatever form of a path leads to a file, it leads to the file that was saved. -/
theorem eq_of_content_of_save (saved : files.save path text = .ok after)
    (holds : after.content path = .ok content) : content = .text text := by
  obtain ⟨prepared, -, written⟩ := except_bind_ok saved
  have lies := (content_of_write written).2
  rw [Path.location_normal, lookup_of_content holds] at lies
  exact Option.some.inj lies

end Saving

end Files

end Reckon
