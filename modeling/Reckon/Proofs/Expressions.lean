import Reckon.Expressions
import Reckon.Proofs.FileLines
import Reckon.Proofs.Trimming

/-!
# Expressions of text files

What a text with one expression a line is read as: lines without blanks around them that are no
comments. Written again with one line each they are read as the same expressions, so reading is a
normal form. Whatever the first of two texts stops with, a line break between the two sets their
expressions apart.
-/

set_option autoImplicit false

namespace Reckon.Expressions

open Text (IsTrimmed isBlank isDisplayedEnd readLines trimmed)

/-- What an expression of a text file looks like: something between the ends of a line, without
blanks around it and without the mark of a comment in front. -/
structure IsExpressionLine (line : List Char) : Prop where
  nonempty : line ≠ []
  trimmed : IsTrimmed isBlank line
  noComment : line.head? ≠ some '#'
  oneLine : ∀ character ∈ line, isDisplayedEnd character = false

section Lines

variable {line : List Char} {expression : Text}

theorem ofText_eq (text : String) :
    ofText text = readLines isDisplayedEnd ofLine? text.toList := rfl

theorem ofLine?_nil : ofLine? [] = none := rfl

theorem isDisplayedEnd_feed : isDisplayedEnd '\n' = true := rfl

theorem isDisplayedEnd_return : isDisplayedEnd '\r' = true := rfl

theorem trimmed_of_ofLine? (found : ofLine? line = some expression) :
    expression = .ofCharacters (trimmed line) ∧ trimmed line ≠ [] ∧
      (trimmed line).head? ≠ some '#' := by
  unfold ofLine? at found
  split at found
  · cases found
  · cases found
  next characters some noComment =>
    refine ⟨(Option.some.inj found).symm, some, ?_⟩
    intro comment
    obtain ⟨rest, shape⟩ := List.head?_eq_some_iff.mp comment
    exact noComment rest shape

/-- What is read from a line is a line that is read as itself. -/
theorem isExpressionLine_trimmed (found : ofLine? line = some expression)
    (oneLine : ∀ character ∈ line, isDisplayedEnd character = false) :
    IsExpressionLine (trimmed line) := by
  obtain ⟨-, nonempty, noComment⟩ := trimmed_of_ofLine? found
  refine ⟨nonempty, Text.isTrimmed_trimBy isBlank line, noComment, ?_⟩
  intro character member
  exact oneLine character (Text.mem_of_mem_trimBy member)

theorem IsExpressionLine.ofLine?_eq (isLine : IsExpressionLine line) :
    ofLine? line = some (.ofCharacters line) := by
  have same : Text.trimmed line = line := isLine.trimmed.trimBy_eq
  unfold ofLine?
  rw [same]
  split
  · exact absurd rfl isLine.nonempty
  · exact absurd rfl isLine.noComment
  · rfl

theorem ofLine?_of_isExpressionLine (isLine : IsExpressionLine (Text.trimmed line)) :
    ofLine? line = some (.ofCharacters (Text.trimmed line)) := by
  have same : Text.trimmed (Text.trimmed line) = Text.trimmed line := isLine.trimmed.trimBy_eq
  rw [← isLine.ofLine?_eq, ofLine?, ofLine?, same]

theorem ofLine?_of_not_isExpressionLine (noLine : ¬ IsExpressionLine (Text.trimmed line))
    (oneLine : ∀ character ∈ line, isDisplayedEnd character = false) : ofLine? line = none := by
  cases found : ofLine? line with
  | none => rfl
  | some expression => exact absurd (isExpressionLine_trimmed found oneLine) noLine

theorem noReturn_of_oneLine (oneLine : ∀ character ∈ line, isDisplayedEnd character = false) :
    '\r' ∉ line := by
  intro member
  have noEnd := oneLine '\r' member
  rw [isDisplayedEnd_return] at noEnd
  cases noEnd

end Lines

theorem ofText_line {line : List Char}
    (oneLine : ∀ character ∈ line, isDisplayedEnd character = false) :
    ofText (String.ofList line) = (ofLine? line).toList := by
  rw [ofText_eq, String.toList_ofList]
  exact Text.readLines_line ofLine?_nil oneLine (noReturn_of_oneLine oneLine)

theorem ofText_append (front back : String) :
    ofText (front ++ "\n" ++ back) = ofText front ++ ofText back := by
  have shape : (front ++ "\n" ++ back).toList = front.toList ++ '\n' :: back.toList := by simp
  rw [ofText_eq, shape, Text.readLines_feed isDisplayedEnd_feed ofLine?_nil]
  rfl

theorem exists_lines_of_ofText (text : String) :
    ∃ lines : List (List Char), ofText text = lines.map Text.ofCharacters ∧
      ∀ line ∈ lines, IsExpressionLine line := by
  have each : ∀ expression ∈ ofText text,
      ∃ line, Text.ofCharacters line = expression ∧ IsExpressionLine line := by
    intro expression member
    obtain ⟨line, inText, found⟩ := List.mem_filterMap.mp member
    refine ⟨trimmed line, (trimmed_of_ofLine? found).1.symm, isExpressionLine_trimmed found ?_⟩
    intro character inLine
    exact Text.not_isEnd_of_mem_linesBy inText inLine
  choose! lineOf same isLine using each
  refine ⟨(ofText text).map lineOf, ?_, ?_⟩
  · rw [List.map_map]
    exact ((List.map_congr_left same).trans (List.map_id' _)).symm
  · intro line member
    obtain ⟨expression, inText, rfl⟩ := List.mem_map.mp member
    exact isLine expression inText

/-- Lines that are expressions are read back from the text that has one of them a line. -/
theorem readLines_intercalate {lines : List (List Char)}
    (each : ∀ line ∈ lines, IsExpressionLine line) :
    readLines isDisplayedEnd ofLine? (['\n'].intercalate lines) = lines.map Text.ofCharacters := by
  induction lines with
  | nil => rfl
  | cons line rest ih =>
      simp only [List.mem_cons, forall_eq_or_imp] at each
      obtain ⟨isLine, others⟩ := each
      have noReturn := noReturn_of_oneLine isLine.oneLine
      have alone := Text.readLines_line ofLine?_nil isLine.oneLine noReturn
      rw [isLine.ofLine?_eq] at alone
      cases rest with
      | nil => simpa [List.intercalate] using alone
      | cons next more =>
          have shape : ['\n'].intercalate (line :: next :: more) =
              line ++ '\n' :: ['\n'].intercalate (next :: more) := by
            simp [List.intercalate]
          rw [shape, Text.readLines_feed isDisplayedEnd_feed ofLine?_nil, alone, ih others]
          rfl

theorem intercalate_ofCharacters (lines : List (List Char)) :
    Text.intercalate "\n" (lines.map Text.ofCharacters) =
      Text.ofCharacters (['\n'].intercalate lines) := by
  apply Text.ext
  induction lines with
  | nil => rfl
  | cons line rest ih =>
      cases rest with
      | nil => simp [Text.intercalate, List.intercalate]
      | cons next more =>
          simp_all [Text.intercalate, List.intercalate]

/-- Files of expressions have a normal form. In a file that is no file of rows each expression is a
line without blanks around it, without the mark of a comment in front and without a line end, and
every line of which that is left without the blanks around it is read. The text that has these
expressions with one line each is read as the same expressions, and the expressions of two texts
with a line break between them are those of the first and then those of the second. -/
theorem expression_files_have_a_normal_form (text : String) :
    (∀ (files : Files) (path : Text), Path.extension? path ≠ some rowsExtension →
        files.read (Path.normal path) = .ok text → read files path = .ok (ofText text)) ∧
      (∀ expression ∈ ofText text,
        ∃ line, expression = .ofCharacters line ∧ IsExpressionLine line) ∧
      (∀ line : List Char, (∀ character ∈ line, isDisplayedEnd character = false) →
        (IsExpressionLine (trimmed line) →
            ofText (String.ofList line) = [.ofCharacters (trimmed line)]) ∧
          (¬ IsExpressionLine (trimmed line) → ofText (String.ofList line) = [])) ∧
      (∃ joined : String, Text.ofString joined = Text.intercalate "\n" (ofText text) ∧
        ofText joined = ofText text) ∧
      ∀ behind : String, ofText (text ++ "\n" ++ behind) = ofText text ++ ofText behind := by
  obtain ⟨lines, expressions, each⟩ := exists_lines_of_ofText text
  refine ⟨?_, ?_, ?_, ?_, ofText_append text⟩
  · intro files path notRows holds
    rw [read, if_neg notRows, holds]
    rfl
  · intro expression member
    rw [expressions] at member
    obtain ⟨line, inLines, rfl⟩ := List.mem_map.mp member
    exact ⟨line, rfl, each line inLines⟩
  · intro line oneLine
    rw [ofText_line oneLine]
    constructor
    · intro isLine
      rw [ofLine?_of_isExpressionLine isLine, Option.toList_some]
    · intro noLine
      rw [ofLine?_of_not_isExpressionLine noLine oneLine, Option.toList_none]
  · refine ⟨String.ofList (['\n'].intercalate lines), ?_, ?_⟩
    · rw [expressions, intercalate_ofCharacters, Text.ofString, String.toList_ofList]
    · rw [ofText_eq, String.toList_ofList, readLines_intercalate each, expressions]

def sumsFile : Files :=
  { contents := [(["sums.txt"], .text "# sums\n\n1+2\u2028")], directories := [] }

theorem product_behind_sums :
    read sumsFile "sums.txt" = .ok ["1+2"] ∧
      ofText ("# sums\n\n1+2\u2028" ++ "\n" ++ " 3*4\t") = (["1+2", "3*4"] : List Text) := by
  have notRows : Path.extension? "sums.txt" ≠ some rowsExtension := by decide +kernel
  have holds : sumsFile.read (Path.normal "sums.txt") = .ok "# sums\n\n1+2\u2028" := by
    decide +kernel
  obtain ⟨fromFile, -, ofLine, -, behind⟩ :=
    expression_files_have_a_normal_form "# sums\n\n1+2\u2028"
  have sums : ofText "# sums\n\n1+2\u2028" = (["1+2"] : List Text) := by
    decide +kernel
  have noEnd : " 3*4\t".toList.any isDisplayedEnd = false := by decide +kernel
  have oneLine : ∀ character ∈ " 3*4\t".toList, isDisplayedEnd character = false :=
    fun character member => eq_false_of_ne_true (List.any_eq_false.mp noEnd character member)
  have isLine : IsExpressionLine (trimmed " 3*4\t".toList) :=
    isExpressionLine_trimmed (by decide +kernel : ofLine? " 3*4\t".toList = some "3*4") oneLine
  have product : ofText " 3*4\t" = (["3*4"] : List Text) := (ofLine _ oneLine).1 isLine
  refine ⟨(fromFile _ _ notRows holds).trans (congrArg Except.ok sums), ?_⟩
  rw [behind, sums, product]
  rfl

end Reckon.Expressions
