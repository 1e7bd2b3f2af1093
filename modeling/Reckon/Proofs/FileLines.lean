import Mathlib.Data.List.Basic
import Reckon.Text.Blank
import Reckon.Text.Lines

/-!
# Lines of files

How the lines of a text come about from the lines of its parts. Behind a line end the lines start
afresh, except that a line feed right behind a carriage return ends no line of its own. Where blank
lines are skipped even that makes no difference, so what is read from the lines of a text is what is
read in front of any of its line ends and then what is read behind it.
-/

set_option autoImplicit false

namespace Reckon.Text

section Unify

variable {front back rest : List Char} {character : Char}

theorem unifyLineEnds_pair (rest : List Char) :
    unifyLineEnds ('\r' :: '\n' :: rest) = '\n' :: unifyLineEnds rest := by
  rw [unifyLineEnds]

theorem unifyLineEnds_return (single : rest.head? ≠ some '\n') :
    unifyLineEnds ('\r' :: rest) = '\n' :: unifyLineEnds rest := by
  rw [unifyLineEnds]
  intro after pair
  exact single (by rw [pair]; rfl)

theorem unifyLineEnds_cons (notReturn : character ≠ '\r') (rest : List Char) :
    unifyLineEnds (character :: rest) = character :: unifyLineEnds rest := by
  rw [unifyLineEnds]
  · intro after same
    exact absurd same notReturn
  · exact notReturn

/-- Line ends are unified in two parts of a text by themselves unless the pair of both marks is
split between them. -/
theorem unifyLineEnds_append (apart : front.getLast? = some '\r' → back.head? ≠ some '\n') :
    unifyLineEnds (front ++ back) = unifyLineEnds front ++ unifyLineEnds back := by
  fun_induction unifyLineEnds front with
  | case1 rest ih =>
      have behind : rest.getLast? = some '\r' → back.head? ≠ some '\n' := by
        intro last
        apply apart
        simp [List.getLast?_cons, last]
      rw [List.cons_append, List.cons_append, unifyLineEnds_pair, ih behind]
      rfl
  | case2 rest notPair ih =>
      have behind : rest.getLast? = some '\r' → back.head? ≠ some '\n' := by
        intro last
        apply apart
        simp [List.getLast?_cons, last]
      have single : (rest ++ back).head? ≠ some '\n' := by
        cases rest with
        | nil => exact apart rfl
        | cons next others =>
            intro feed
            have same : next = '\n' := by simpa using feed
            exact notPair others (by rw [same])
      rw [List.cons_append, unifyLineEnds_return single, ih behind]
      rfl
  | case3 character rest notPair notReturn ih =>
      have behind : rest.getLast? = some '\r' → back.head? ≠ some '\n' := by
        intro last
        apply apart
        simp [List.getLast?_cons, last]
      rw [List.cons_append, unifyLineEnds_cons notReturn, ih behind]
      rfl
  | case4 => rfl

theorem unifyLineEnds_eq_self (noReturn : '\r' ∉ front) : unifyLineEnds front = front := by
  induction front with
  | nil => rfl
  | cons character rest ih =>
      simp only [List.mem_cons, not_or] at noReturn
      rw [unifyLineEnds_cons (Ne.symm noReturn.1), ih noReturn.2]

/-- A line feed ends a line, alone or together with a carriage return in front of it. -/
theorem exists_unifyLineEnds_feed (front back : List Char) :
    ∃ kept, unifyLineEnds (front ++ '\n' :: back) =
        unifyLineEnds kept ++ '\n' :: unifyLineEnds back ∧
      (front = kept ∨ front = kept ++ ['\r']) := by
  by_cases paired : front.getLast? = some '\r'
  · obtain ⟨kept, rfl⟩ := List.getLast?_eq_some_iff.mp paired
    refine ⟨kept, ?_, .inr rfl⟩
    rw [List.append_assoc, List.singleton_append, unifyLineEnds_append (by simp),
      unifyLineEnds_pair]
  · refine ⟨front, ?_, .inl rfl⟩
    rw [unifyLineEnds_append (fun last => absurd last paired),
      unifyLineEnds_cons (by decide)]

/-- So does a carriage return, alone or together with a line feed behind it. -/
theorem exists_unifyLineEnds_return (front back : List Char) :
    ∃ kept, unifyLineEnds (front ++ '\r' :: back) =
        unifyLineEnds front ++ '\n' :: unifyLineEnds kept ∧
      (back = kept ∨ back = '\n' :: kept) := by
  rw [unifyLineEnds_append (by simp)]
  by_cases paired : back.head? = some '\n'
  · obtain ⟨kept, rfl⟩ := List.head?_eq_some_iff.mp paired
    exact ⟨kept, by rw [unifyLineEnds_pair], .inr rfl⟩
  · exact ⟨back, by rw [unifyLineEnds_return paired], .inl rfl⟩

end Unify

section LinesBy

variable {isEnd : Char → Bool} {line front back : List Char} {character ending : Char}

/-- Lines with a character in front of the first of them. -/
def prepend (character : Char) : List (List Char) → List (List Char)
  | [] => [[character]]
  | line :: more => (character :: line) :: more

theorem prepend_append (character : Char) {lines : List (List Char)} (some : lines ≠ [])
    (others : List (List Char)) :
    prepend character (lines ++ others) = prepend character lines ++ others := by
  cases lines with
  | nil => exact absurd rfl some
  | cons line more => rfl

theorem linesBy_of_end (isEnding : isEnd ending = true) (rest : List Char) :
    linesBy isEnd (ending :: rest) = [] :: linesBy isEnd rest := by
  rw [linesBy, if_pos isEnding]

theorem linesBy_of_not_end (notEnd : isEnd character = false) (rest : List Char) :
    linesBy isEnd (character :: rest) = prepend character (linesBy isEnd rest) := by
  rw [linesBy, notEnd]
  cases linesBy isEnd rest <;> rfl

theorem linesBy_ne_nil {characters : List Char} (some : characters ≠ []) :
    linesBy isEnd characters ≠ [] := by
  obtain ⟨character, rest, rfl⟩ := List.exists_cons_of_ne_nil some
  cases isEnding : isEnd character with
  | true => simp [linesBy_of_end isEnding]
  | false =>
      rw [linesBy_of_not_end isEnding]
      cases linesBy isEnd rest <;> simp [prepend]

theorem linesBy_last (inLine : ∀ character ∈ line, isEnd character = false) (some : line ≠ []) :
    linesBy isEnd line = [line] := by
  induction line with
  | nil => exact absurd rfl some
  | cons character others ih =>
      simp only [List.mem_cons, forall_eq_or_imp] at inLine
      rw [linesBy_of_not_end inLine.1]
      cases others with
      | nil => rfl
      | cons next more =>
          rw [ih inLine.2 (by simp)]
          rfl

theorem linesBy_line (inLine : ∀ character ∈ line, isEnd character = false)
    (isEnding : isEnd ending = true) (rest : List Char) :
    linesBy isEnd (line ++ ending :: rest) = line :: linesBy isEnd rest := by
  induction line with
  | nil => exact linesBy_of_end isEnding rest
  | cons character others ih =>
      simp only [List.mem_cons, forall_eq_or_imp] at inLine
      rw [List.cons_append, linesBy_of_not_end inLine.1, ih inLine.2]
      rfl

theorem not_isEnd_of_mem_linesBy {characters : List Char}
    (member : line ∈ linesBy isEnd characters) (inLine : character ∈ line) :
    isEnd character = false := by
  induction characters generalizing line with
  | nil => cases member
  | cons first rest ih =>
      cases isEnding : isEnd first with
      | true =>
          rw [linesBy_of_end isEnding] at member
          rcases List.mem_cons.mp member with rfl | inRest
          · cases inLine
          · exact ih inRest inLine
      | false =>
          rw [linesBy_of_not_end isEnding] at member
          cases shape : linesBy isEnd rest with
          | nil =>
              rw [shape, prepend, List.mem_singleton] at member
              rw [member, List.mem_singleton] at inLine
              rwa [inLine]
          | cons next more =>
              rw [shape, prepend] at member
              rw [shape] at ih
              rcases List.mem_cons.mp member with rfl | inMore
              · rcases List.mem_cons.mp inLine with rfl | inNext
                · exact isEnding
                · exact ih List.mem_cons_self inNext
              · exact ih (List.mem_cons_of_mem _ inMore) inLine

/-- A text that is empty or stops with a line end. -/
def IsClosed (isEnd : Char → Bool) (characters : List Char) : Prop :=
  ∀ last ∈ characters.getLast?, isEnd last = true

/-- The lines behind a closed text start afresh. -/
theorem linesBy_append (closed : IsClosed isEnd front) (back : List Char) :
    linesBy isEnd (front ++ back) = linesBy isEnd front ++ linesBy isEnd back := by
  induction front with
  | nil => rfl
  | cons character rest ih =>
      cases isEnding : isEnd character with
      | true =>
          have behind : IsClosed isEnd rest := by
            intro last isLast
            exact closed last (by simp_all [List.getLast?_cons])
          rw [List.cons_append, linesBy_of_end isEnding, linesBy_of_end isEnding, ih behind]
          rfl
      | false =>
          cases rest with
          | nil => exact absurd (closed character rfl) (by simp [isEnding])
          | cons next others =>
              have behind : IsClosed isEnd (next :: others) := by
                intro last isLast
                exact closed last (by simpa [List.getLast?_cons] using isLast)
              rw [List.cons_append, linesBy_of_not_end isEnding, ih behind,
                prepend_append character (linesBy_ne_nil (by simp)), linesBy_of_not_end isEnding]

/-- Closing the last line of a text adds no line, or an empty one. -/
theorem linesBy_close (isEnding : isEnd ending = true) (front : List Char) :
    linesBy isEnd (front ++ [ending]) = linesBy isEnd front ∨
      linesBy isEnd (front ++ [ending]) = linesBy isEnd front ++ [[]] := by
  induction front with
  | nil => exact .inr (linesBy_of_end isEnding [])
  | cons character rest ih =>
      cases first : isEnd character with
      | true =>
          rw [List.cons_append, linesBy_of_end first, linesBy_of_end first]
          rcases ih with same | added
          · exact .inl (by rw [same])
          · exact .inr (by rw [added]; rfl)
      | false =>
          rw [List.cons_append, linesBy_of_not_end first, linesBy_of_not_end first]
          cases rest with
          | nil => exact .inl (by rw [List.nil_append, linesBy_of_end isEnding]; rfl)
          | cons next others =>
              rcases ih with same | added
              · exact .inl (by rw [same])
              · exact .inr (by rw [added, prepend_append character (linesBy_ne_nil (by simp))])

theorem length_linesBy {characters : List Char} (closed : IsClosed isEnd characters) :
    (linesBy isEnd characters).length = characters.countP isEnd := by
  induction characters with
  | nil => rfl
  | cons character rest ih =>
      cases isEnding : isEnd character with
      | true =>
          have behind : IsClosed isEnd rest := by
            intro last isLast
            exact closed last (by simp_all [List.getLast?_cons])
          simp [linesBy_of_end isEnding, ih behind, isEnding]
      | false =>
          cases rest with
          | nil => exact absurd (closed character rfl) (by simp [isEnding])
          | cons next others =>
              have behind : IsClosed isEnd (next :: others) := by
                intro last isLast
                exact closed last (by simpa [List.getLast?_cons] using isLast)
              have length : ∀ {lines : List (List Char)}, lines ≠ [] →
                  (prepend character lines).length = lines.length := by
                intro lines some
                cases lines with
                | nil => exact absurd rfl some
                | cons => rfl
              rw [linesBy_of_not_end isEnding, length (linesBy_ne_nil (by simp)), ih behind]
              simp [isEnding]

end LinesBy

section PhysicalLines

variable {front : List Char}

/-- How many line ends a text has; a carriage return and a line feed in a row are one. -/
def lineEnds : List Char → Nat
  | '\r' :: '\n' :: rest => lineEnds rest + 1
  | '\r' :: rest => lineEnds rest + 1
  | '\n' :: rest => lineEnds rest + 1
  | _ :: rest => lineEnds rest
  | [] => 0

theorem count_unifyLineEnds (characters : List Char) :
    (unifyLineEnds characters).countP (· == '\n') = lineEnds characters := by
  fun_induction unifyLineEnds characters with
  | case1 rest ih => simp [lineEnds, ih]
  | case2 rest notPair ih =>
      rw [lineEnds]
      · simp [ih]
      · exact notPair
  | case3 character rest notPair notReturn ih =>
      by_cases feed : character = '\n'
      · simp [feed, lineEnds, ih]
      · rw [lineEnds]
        · simp [feed, ih]
        · intro after same
          exact absurd same notReturn
        · exact notReturn
        · exact feed
  | case4 => rfl

theorem isClosed_unifyLineEnds (closed : IsClosed (· == '\n') front) :
    IsClosed (· == '\n') (unifyLineEnds front) := by
  cases last : front.getLast? with
  | none =>
      rw [List.getLast?_eq_none_iff.mp last]
      intro character none
      cases none
  | some character =>
      obtain ⟨before, rfl⟩ := List.getLast?_eq_some_iff.mp last
      obtain rfl : character = '\n' := by simpa using closed character last
      obtain ⟨kept, shape, -⟩ := exists_unifyLineEnds_feed before []
      rw [shape]
      intro final isFinal
      obtain rfl : '\n' = final := by simpa [unifyLineEnds] using isFinal
      rfl

/-- The physical lines behind a text that is empty or stops with a line feed start afresh. -/
theorem physicalLines_append (closed : IsClosed (· == '\n') front) (back : List Char) :
    physicalLines (front ++ back) = physicalLines front ++ physicalLines back := by
  have apart : front.getLast? = some '\r' → back.head? ≠ some '\n' := by
    intro last
    exact absurd (closed '\r' last) (by decide)
  rw [physicalLines, unifyLineEnds_append apart, linesBy_append (isClosed_unifyLineEnds closed)]
  rfl

theorem physicalLines_line (noFeed : '\n' ∉ front) (noReturn : '\r' ∉ front) (back : List Char) :
    physicalLines (front ++ '\n' :: back) = front :: physicalLines back := by
  have apart : front.getLast? = some '\r' → ('\n' :: back).head? ≠ some '\n' := by
    intro last
    exact absurd (List.mem_of_getLast? last) noReturn
  have inLine : ∀ character ∈ front, (character == '\n') = false := by
    intro character member
    rw [beq_eq_false_iff_ne]
    exact fun isFeed => noFeed (isFeed ▸ member)
  rw [physicalLines, unifyLineEnds_append apart, unifyLineEnds_eq_self noReturn,
    unifyLineEnds_cons (by decide), linesBy_line inLine rfl]
  rfl

theorem length_physicalLines (closed : IsClosed (· == '\n') front) :
    (physicalLines front).length = lineEnds front := by
  rw [physicalLines, length_linesBy (isClosed_unifyLineEnds closed), count_unifyLineEnds]

end PhysicalLines

/-- The ends of a physical line. -/
inductive IsLineEnd : List Char → Prop where
  | feed : IsLineEnd ['\n']
  | pair : IsLineEnd ['\r', '\n']
  | carriageReturn : IsLineEnd ['\r']

section Reading

variable {α : Type} {isEnd : Char → Bool} {read? : List Char → Option α}

/-- What is read from the lines of a text, one after the other. -/
def readLines (isEnd : Char → Bool) (read? : List Char → Option α) (characters : List Char) :
    List α :=
  (linesBy isEnd (unifyLineEnds characters)).filterMap read?

theorem filterMap_linesBy (skips : read? [] = none) {ending : Char} (isEnding : isEnd ending = true)
    (front back : List Char) :
    (linesBy isEnd (front ++ ending :: back)).filterMap read? =
      (linesBy isEnd front).filterMap read? ++ (linesBy isEnd back).filterMap read? := by
  have closed : IsClosed isEnd (front ++ [ending]) := by
    intro last isLast
    simp_all
  rw [← List.singleton_append, ← List.append_assoc, linesBy_append closed, List.filterMap_append]
  rcases linesBy_close isEnding front with same | added
  · rw [same]
  · rw [added, List.filterMap_append, List.filterMap_cons_none skips]
    simp

variable (feed : isEnd '\n' = true) (skips : read? [] = none)
include feed skips

theorem readLines_feed (front back : List Char) :
    readLines isEnd read? (front ++ '\n' :: back) =
      readLines isEnd read? front ++ readLines isEnd read? back := by
  obtain ⟨kept, shape, rfl | rfl⟩ := exists_unifyLineEnds_feed front back
  · rw [readLines, shape, filterMap_linesBy skips feed]
    rfl
  · have cut : unifyLineEnds (kept ++ ['\r']) = unifyLineEnds kept ++ '\n' :: [] := by
      rw [unifyLineEnds_append (by simp)]
      rfl
    rw [readLines, shape, filterMap_linesBy skips feed, readLines, readLines, cut,
      filterMap_linesBy skips feed]
    simp [linesBy]

theorem readLines_return (front back : List Char) :
    readLines isEnd read? (front ++ '\r' :: back) =
      readLines isEnd read? front ++ readLines isEnd read? back := by
  obtain ⟨kept, shape, rfl | rfl⟩ := exists_unifyLineEnds_return front back
  · rw [readLines, shape, filterMap_linesBy skips feed]
    rfl
  · have atFront := readLines_feed feed skips [] kept
    rw [List.nil_append] at atFront
    rw [readLines, shape, filterMap_linesBy skips feed, atFront]
    rfl

theorem readLines_end {ending : List Char} (isLineEnd : IsLineEnd ending)
    (front back : List Char) :
    readLines isEnd read? (front ++ (ending ++ back)) =
      readLines isEnd read? front ++ readLines isEnd read? back := by
  cases isLineEnd with
  | feed => exact readLines_feed feed skips front back
  | pair =>
      have behind := readLines_feed feed skips [] back
      rw [List.nil_append] at behind
      rw [List.cons_append, List.cons_append, List.nil_append,
        readLines_return feed skips, behind]
      rfl
  | carriageReturn => exact readLines_return feed skips front back

omit feed in
theorem readLines_line {line : List Char} (inLine : ∀ character ∈ line, isEnd character = false)
    (noReturn : '\r' ∉ line) : readLines isEnd read? line = (read? line).toList := by
  rw [readLines, unifyLineEnds_eq_self noReturn]
  cases line with
  | nil => rw [skips]; rfl
  | cons first rest =>
      rw [linesBy_last inLine (by simp)]
      cases read : read? (first :: rest) <;> simp [read]

end Reading

end Reckon.Text
