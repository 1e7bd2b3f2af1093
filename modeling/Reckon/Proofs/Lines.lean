import Mathlib.Data.List.Basic
import Reckon.Text

/-!
# Lines of a text

The lines of a text that other lines were joined to, and of one that its line feeds cut.
-/

set_option autoImplicit false

namespace Reckon.Text

/-- The lines of a text, cut at its line feeds and at no other character. -/
def lines (text : Text) : List (List Glyph) :=
  text.toList.splitOn (.whole '\n')

variable {text : Text}

/-- A line break ends a line. Everything about lines follows from this equation. -/
theorem lines_append_break (left right : Text) :
    (left ++ "\n" ++ right).lines = left.lines ++ right.lines := by
  have shape : (left ++ "\n" ++ right).toList = left.toList ++ .whole '\n' :: right.toList := by
    simp
  rw [lines, shape, List.splitOn_append_cons_self]
  rfl

theorem lines_of_notMem (oneLine : Glyph.whole '\n' ∉ text.toList) : text.lines = [text.toList] :=
  List.splitOn_eq_singleton oneLine

theorem lines_intercalate {texts : List Text} (nonempty : texts ≠ []) :
    (intercalate "\n" texts).lines = texts.flatMap lines := by
  induction texts with
  | nil => exact absurd rfl nonempty
  | cons first rest ih =>
      cases rest with
      | nil => simp [intercalate]
      | cons second others =>
          have shape : intercalate "\n" (first :: second :: others) =
              first ++ "\n" ++ intercalate "\n" (second :: others) := by
            apply Text.ext
            simp [intercalate]
          rw [shape, lines_append_break, ih (by simp)]
          rfl

theorem lines_intercalate_of_lines {texts : List Text} (nonempty : texts ≠ [])
    (oneLine : ∀ line ∈ texts, Glyph.whole '\n' ∉ line.toList) :
    (intercalate "\n" texts).lines = texts.map toList := by
  rw [lines_intercalate nonempty, ← List.flatMap_singleton' (texts.map toList), List.flatMap_map]
  exact List.flatMap_congr fun line member => lines_of_notMem (oneLine line member)

theorem exists_front_of_break {glyphs : List Glyph} (breaks : Glyph.whole '\n' ∈ glyphs) :
    ∃ front last, glyphs = front ++ .whole '\n' :: last ∧ Glyph.whole '\n' ∉ last := by
  obtain ⟨last, front, shape, noBreak⟩ := List.eq_append_cons_of_mem (List.mem_reverse.mpr breaks)
  refine ⟨front.reverse, last.reverse, ?_, by simpa using noBreak⟩
  rw [← List.reverse_reverse glyphs, shape]
  simp

end Reckon.Text
