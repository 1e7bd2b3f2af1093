import Mathlib.Data.List.Nodup
import Reckon.Proofs.Interpretation
import Reckon.Proofs.Lines
import Reckon.Proofs.Offences
import Reckon.Proofs.Slices

/-!
# Carets

Where a diagnosis points. The position that a stage reports is a place in the trimmed source: a
character that is not blank, or the end. When it is a character, the shown diagnosis has a caret as
its last line. The caret stands in the column that the character has when the whole expression is
shown on one line, so in an expression with line breaks it stands under another character, or
under none.
-/

set_option autoImplicit false

namespace Reckon

open Token (tokenize)

namespace Text

/-- A line with a caret in a column and spaces in front of it. -/
def caretLine (column : Nat) : List Glyph :=
  List.replicate column (.whole ' ') ++ [.whole '^']

def HasCaretLine (text : Text) : Prop :=
  ∃ before column, text.lines = before ++ [caretLine column]

/-- The last line of a text is a caret under a glyph of the line above. -/
def PointsAt (text : Text) (glyph : Glyph) : Prop :=
  ∃ before above column, text.lines = before ++ [above, caretLine column] ∧
    above[column]? = some glyph

variable {text : Text}

theorem lines_caretLine (column : Nat) :
    (ofString (String.ofList (List.replicate column ' ' ++ ['^']))).lines = [caretLine column] := by
  have shape : (ofString (String.ofList (List.replicate column ' ' ++ ['^']))).toList =
      caretLine column := by simp [caretLine]
  rw [lines_of_notMem, shape]
  rw [shape]
  simp [caretLine]

theorem caretLine_inj {left right : Nat} : caretLine left = caretLine right ↔ left = right := by
  refine ⟨fun same => ?_, congrArg caretLine⟩
  simpa [caretLine] using congrArg List.length same

theorem pointsAt_iff {before : List (List Glyph)} {above : List Glyph} {column : Nat}
    (shape : text.lines = before ++ [above, caretLine column]) (glyph : Glyph) :
    text.PointsAt glyph ↔ above[column]? = some glyph := by
  constructor
  · rintro ⟨otherBefore, otherAbove, otherColumn, otherShape, found⟩
    obtain ⟨-, same⟩ := List.append_inj' (shape.symm.trans otherShape) rfl
    simp only [List.cons.injEq, caretLine_inj] at same
    obtain ⟨rfl, rfl, -⟩ := same
    exact found
  · exact fun found => ⟨before, above, column, shape, found⟩

end Text

namespace Diagnosis

variable {diagnosis : Diagnosis} {expression : Text}

/-- A diagnosis points at a character of an expression. -/
def IsInside (diagnosis : Diagnosis) (expression : Text) : Prop :=
  0 ≤ diagnosis.position ∧ diagnosis.position < expression.length

def caretColumn (diagnosis : Diagnosis) : Nat :=
  expressionLabel.length + diagnosis.position.toNat

def labelled (expression : Text) : Text :=
  expressionLabel ++ expression

/-- A shown diagnosis has its heading, the expression, and a caret line if it points inside. -/
theorem exists_lines_shown (diagnosis : Diagnosis) (expression : Text) :
    ∃ heading, (diagnosis.IsInside expression → (diagnosis.shown expression).lines =
        heading ++ (labelled expression).lines ++ [Text.caretLine diagnosis.caretColumn]) ∧
      (¬ diagnosis.IsInside expression →
        (diagnosis.shown expression).lines = heading ++ (labelled expression).lines) := by
  unfold IsInside shown
  refine ⟨Text.lines (diagnosis.category.name ++ " ERROR: " ++ diagnosis.message) ++
    Text.lines "", fun inside => ?_, fun outside => ?_⟩
  · rw [Text.lines_intercalate (by simp), if_pos inside]
    simp only [List.flatMap_append, List.flatMap_cons, List.flatMap_nil, List.append_nil,
      List.append_assoc, Text.lines_caretLine]
    rfl
  · rw [Text.lines_intercalate (by simp), if_neg outside]
    simp only [List.flatMap_cons, List.flatMap_nil, List.append_nil, List.append_assoc]
    rfl

theorem lines_labelled_of_notMem (oneLine : Glyph.whole '\n' ∉ expression.toList) :
    (labelled expression).lines = [(labelled expression).toList] :=
  Text.lines_of_notMem (by simpa [labelled, expressionLabel] using oneLine)

theorem lines_labelled_of_break {front last : List Glyph}
    (parts : expression.toList = front ++ .whole '\n' :: last)
    (noBreak : Glyph.whole '\n' ∉ last) :
    (labelled expression).lines = (labelled ⟨front⟩).lines ++ [last] := by
  have shape : labelled expression = labelled ⟨front⟩ ++ "\n" ++ ⟨last⟩ := by
    apply Text.ext
    simp [labelled, parts]
  rw [shape, Text.lines_append_break, @Text.lines_of_notMem ⟨last⟩ noBreak]

theorem exists_lines_labelled (expression : Text) :
    ∃ before last, (labelled expression).lines = before ++ [last] ∧
      last ⊆ (labelled expression).toList := by
  by_cases breaks : Glyph.whole '\n' ∈ expression.toList
  · obtain ⟨front, last, parts, noBreak⟩ := Text.exists_front_of_break breaks
    refine ⟨_, last, lines_labelled_of_break parts noBreak, ?_⟩
    intro glyph member
    simp [labelled, parts, member]
  · exact ⟨[], _, lines_labelled_of_notMem breaks, List.Subset.refl _⟩

theorem hasCaretLine_of_inside (inside : diagnosis.IsInside expression) :
    (diagnosis.shown expression).HasCaretLine := by
  obtain ⟨heading, lines, -⟩ := exists_lines_shown diagnosis expression
  exact ⟨_, _, lines inside⟩

theorem getElem?_labelled (expression : Text) (index : Nat) :
    (labelled expression).toList[expressionLabel.length + index]? = expression.toList[index]? := by
  have length : (Text.ofString expressionLabel).toList.length = expressionLabel.length := by
    simp [String.length_toList]
  rw [labelled, Text.toList_append, List.getElem?_append_right (by omega), length,
    Nat.add_sub_cancel_left]

theorem pointsAt_iff_of_notMem (inside : diagnosis.IsInside expression)
    (oneLine : Glyph.whole '\n' ∉ expression.toList) (glyph : Glyph) :
    (diagnosis.shown expression).PointsAt glyph ↔
      expression.toList[diagnosis.position.toNat]? = some glyph := by
  obtain ⟨heading, lines, -⟩ := exists_lines_shown diagnosis expression
  have lines := lines inside
  rw [lines_labelled_of_notMem oneLine, List.append_assoc] at lines
  rw [Text.pointsAt_iff lines, caretColumn, getElem?_labelled]

/-- The caret counts from the start of the expression, the line above from the last line break. -/
theorem pointsAt_iff_of_break (inside : diagnosis.IsInside expression) {front last : List Glyph}
    (parts : expression.toList = front ++ .whole '\n' :: last)
    (noBreak : Glyph.whole '\n' ∉ last) (glyph : Glyph) :
    (diagnosis.shown expression).PointsAt glyph ↔
      last[diagnosis.caretColumn]? = some glyph := by
  obtain ⟨heading, lines, -⟩ := exists_lines_shown diagnosis expression
  have lines := lines inside
  rw [lines_labelled_of_break parts noBreak, ← List.append_assoc, List.append_assoc] at lines
  exact Text.pointsAt_iff lines glyph

/-- Without a position inside the expression the last line is one of the expression, so it is a
caret line only when the expression has a caret itself. -/
theorem not_hasCaretLine (outside : ¬ diagnosis.IsInside expression)
    (noCaret : Glyph.whole '^' ∉ expression.toList) :
    ¬ (diagnosis.shown expression).HasCaretLine := by
  rintro ⟨before, column, shape⟩
  obtain ⟨heading, -, lines⟩ := exists_lines_shown diagnosis expression
  obtain ⟨middle, last, lastLine, subset⟩ := exists_lines_labelled expression
  have lines := lines outside
  rw [lastLine, ← List.append_assoc, shape] at lines
  obtain ⟨-, same⟩ := List.append_inj' lines rfl
  obtain rfl : Text.caretLine column = last := by simpa using same
  have caret : Glyph.whole '^' ∈ (labelled expression).toList := subset (by simp [Text.caretLine])
  exact noCaret (by simpa [labelled, expressionLabel] using caret)

end Diagnosis

section Positions

variable {source strategyName : Text} {cap? : Option Int} {fault : Fault} {diagnosis : Diagnosis}
  {tokens : List Token} {token : Token}

/-- A character that is not blank stands at a position of a text. -/
def Text.IsVisibleAt (text : Text) (position : Int) : Prop :=
  ∃ (index : Nat) (glyph : Glyph), position = index ∧ text.toList[index]? = some glyph ∧
    glyph.isIn isBlank = false

theorem Text.IsVisibleAt.bounds {text : Text} {position : Int}
    (visible : text.IsVisibleAt position) : 0 ≤ position ∧ position < text.length := by
  obtain ⟨index, glyph, rfl, found, -⟩ := visible
  obtain ⟨inside, -⟩ := List.getElem?_eq_some_iff.mp found
  exact ⟨by omega, by simpa [Text.length] using inside⟩

namespace Token

theorem Spells.caret_notMem {position : Int} {glyphs : List Glyph}
    (spells : Spells position tokens glyphs) : Glyph.whole '^' ∉ glyphs := by
  induction spells with
  | done => simp
  | @blank position tokens glyph rest isBlank _ ih =>
      refine List.not_mem_cons_of_ne_of_not_mem ?_ ih
      rintro rfl
      exact absurd isBlank (by decide)
  | @lexeme token tokens rest isLexeme _ _ ih =>
      refine fun member => (List.mem_append.mp member).elim (fun inToken => ?_) ih
      by_cases kind : token.kind = .number
      · exact absurd ((isLexeme.isNumeralGlyph_iff inToken).mpr kind) (by decide)
      · obtain ⟨glyph, shape, found⟩ := isLexeme.single_of_kind_ne kind
        obtain rfl : Glyph.whole '^' = glyph := by simpa [shape] using inToken
        exact absurd found (by simp [singleKind?])

theorem caret_notMem_of_tokenize (lexed : tokenize source = .ok tokens) :
    Glyph.whole '^' ∉ (Text.trim source).toList := by
  obtain ⟨lexemes, -, spells, -⟩ := tokenize_eq_ok_iff.mp lexed
  exact spells.caret_notMem

theorem isVisibleAt_of_mem (lexed : tokenize source = .ok tokens) (member : token ∈ tokens)
    (notEnd : token.isEnd = false) : (Text.trim source).IsVisibleAt token.position := by
  obtain ⟨lexemes, -, spells, rfl⟩ := tokenize_eq_ok_iff.mp lexed
  rcases List.mem_append.mp member with inLexemes | isEnd
  · have isLexeme := spells.isLexeme inLexemes
    obtain ⟨distance, place, front, behind, shape, rfl, -⟩ := spells.exists_standsAt inLexemes
    obtain ⟨first, others, textShape⟩ := List.exists_cons_of_ne_nil isLexeme.toList_ne_nil
    refine ⟨front.length, first, by simpa using place, ?_, isLexeme.not_blank (by simp [textShape])⟩
    simp [shape, textShape]
  · obtain rfl := List.mem_singleton.mp isEnd
    cases notEnd

theorem position_of_isEnd (lexed : tokenize source = .ok tokens) (member : token ∈ tokens)
    (isEnd : token.isEnd = true) : token.position = (Text.trim source).length := by
  obtain ⟨lexemes, -, spells, rfl⟩ := tokenize_eq_ok_iff.mp lexed
  rcases List.mem_append.mp member with inLexemes | isLast
  · exact absurd (isEnd_iff.mp isEnd) (spells.isLexeme inLexemes).kind_ne
  · obtain rfl := List.mem_singleton.mp isLast
    rfl

theorem eq_of_position_eq (lexed : tokenize source = .ok tokens) {other : Token}
    (member : token ∈ tokens) (otherMember : other ∈ tokens)
    (same : token.position = other.position) : token = other := by
  have distinct : (tokens.map Token.position).Nodup :=
    List.pairwise_map.mpr
      ((pairwise_isBefore_of_tokenize lexed).imp fun before => Int.ne_of_lt before.1)
  exact List.inj_on_of_nodup_map distinct member otherMember same

theorem tokenize_error_place (refused : tokenize source = .error fault) :
    ∃ cause place, fault = .lexical cause place ∧
      ((Text.trim source).toList = [] ∧ place = 0 ∨ (Text.trim source).IsVisibleAt place) := by
  by_cases empty : (Text.trim source).toList = []
  · rw [tokenize, empty] at refused
    cases refused
    exact ⟨_, 0, rfl, .inl ⟨empty, rfl⟩⟩
  · obtain ⟨cause, place, rfl, stumbles⟩ :=
      scan_eq_error_iff.mp ((tokenize_eq_error_iff empty).mp refused)
    obtain ⟨front, offence, offset, tokens, shape, -, offends, -, rfl⟩ := stumbles.exists_front
    obtain ⟨glyph, found, notBlank⟩ := offends.exists_glyph
    refine ⟨cause, _, rfl, .inr ⟨front.length + offset, glyph, by simp, ?_, notBlank⟩⟩
    rwa [shape, List.getElem?_append_right (by omega), Nat.add_sub_cancel_left]

end Token

/-- A diagnosis has a place in a text: a character that is not blank, or the end. -/
def Diagnosis.HasPlaceIn (diagnosis : Diagnosis) (text : Text) : Prop :=
  0 ≤ diagnosis.position ∧ diagnosis.position ≤ text.length ∧
    (diagnosis.position < text.length → text.IsVisibleAt diagnosis.position)

namespace Diagnosis

variable {text : Text}

theorem hasPlaceIn_of_visible (visible : text.IsVisibleAt diagnosis.position) :
    diagnosis.HasPlaceIn text :=
  ⟨visible.bounds.1, Int.le_of_lt visible.bounds.2, fun _ => visible⟩

theorem hasPlaceIn_of_eq (atEnd : diagnosis.position = text.length) :
    diagnosis.HasPlaceIn text :=
  ⟨by omega, by omega, fun inside => by omega⟩

theorem not_isInside_of_eq (atEnd : diagnosis.position = text.length) :
    ¬ diagnosis.IsInside text :=
  fun inside => Int.ne_of_lt inside.2 atEnd

end Diagnosis

theorem diagnosis_of_lexing (refused : tokenize source = .error fault)
    (reported : fault.diagnosis? = some diagnosis) :
    diagnosis.category = .tokenizer ∧ diagnosis.HasPlaceIn (Text.trim source) ∧
      (diagnosis.position = (Text.trim source).length ↔ (Text.trim source).toList = []) ∧
      ((diagnosis.shown (Text.trim source)).HasCaretLine ↔ (Text.trim source).toList ≠ []) := by
  obtain ⟨cause, place, rfl, ends⟩ := Token.tokenize_error_place refused
  obtain ⟨category, position⟩ : diagnosis.category = .tokenizer ∧ diagnosis.position = place := by
    cases reported
    exact ⟨rfl, rfl⟩
  subst position
  refine ⟨category, ?_⟩
  rcases ends with ⟨empty, atStart⟩ | visible
  · have atEnd : diagnosis.position = (Text.trim source).length := by
      simp [atStart, Text.length, empty]
    exact ⟨Diagnosis.hasPlaceIn_of_eq atEnd, iff_of_true atEnd empty,
      iff_of_false (Diagnosis.not_hasCaretLine (Diagnosis.not_isInside_of_eq atEnd)
        (by simp [empty])) (not_not_intro empty)⟩
  · have inside := visible.bounds
    have nonempty : (Text.trim source).toList ≠ [] := by
      intro empty
      simp only [Text.length, empty, List.length_nil] at inside
      omega
    exact ⟨Diagnosis.hasPlaceIn_of_visible visible, iff_of_false (Int.ne_of_lt inside.2) nonempty,
      iff_of_true (Diagnosis.hasCaretLine_of_inside inside) nonempty⟩

theorem diagnosis_of_parsing {strategy : Strategy} (lexed : tokenize source = .ok tokens)
    (refused : strategy.parse tokens cap? = .error fault)
    (reported : fault.diagnosis? = some diagnosis) :
    diagnosis.category = .parser ∧ diagnosis.HasPlaceIn (Text.trim source) ∧
      ∃ token ∈ tokens, diagnosis.position = token.position ∧
        (∀ other ∈ tokens, diagnosis.position = other.position → other = token) ∧
        (diagnosis.position = (Text.trim source).length ↔ token.isEnd = true) ∧
        ((diagnosis.shown (Text.trim source)).HasCaretLine ↔ token.isEnd = false) := by
  obtain ⟨cause, token, member, rfl⟩ :=
    strategy.exists_token_of_refused (Token.tokenize_wellFormed lexed) refused
  obtain ⟨category, position⟩ :
      diagnosis.category = .parser ∧ diagnosis.position = token.position := by
    cases reported
    exact ⟨rfl, rfl⟩
  have unique : ∀ other ∈ tokens, diagnosis.position = other.position → other = token :=
    fun other otherMember same =>
      Token.eq_of_position_eq lexed otherMember member (same.symm.trans position)
  refine ⟨category, ?_⟩
  cases isEnd : token.isEnd with
  | false =>
      have visible := position ▸ Token.isVisibleAt_of_mem lexed member isEnd
      have inside := visible.bounds
      exact ⟨Diagnosis.hasPlaceIn_of_visible visible, token, member, position, unique,
        iff_of_false (Int.ne_of_lt inside.2) (by simp [isEnd]),
        iff_of_true (Diagnosis.hasCaretLine_of_inside inside) isEnd⟩
  | true =>
      have atEnd := position.trans (Token.position_of_isEnd lexed member isEnd)
      have bare := Diagnosis.not_hasCaretLine (Diagnosis.not_isInside_of_eq atEnd)
        (Token.caret_notMem_of_tokenize lexed)
      exact ⟨Diagnosis.hasPlaceIn_of_eq atEnd, token, member, position, unique,
        iff_of_true atEnd isEnd, iff_of_false bare (by simp [isEnd])⟩

/-- Diagnoses point at something. Those of the lexer and of a parser have a place in the trimmed
source. The lexer reports the end for the empty source only, and a parser the position of one token,
which is the end of the source if the token is the end of input. Otherwise a caret is shown. What
the evaluator reports has no position, and no caret. -/
theorem diagnosis_points_at_something
    (refused : interpret source strategyName cap? = .error fault)
    (reported : fault.diagnosis? = some diagnosis) :
    (diagnosis.category ≠ .evaluator → diagnosis.HasPlaceIn (Text.trim source)) ∧
    (diagnosis.category = .tokenizer →
      (diagnosis.position = (Text.trim source).length ↔ (Text.trim source).toList = []) ∧
        ((diagnosis.shown (Text.trim source)).HasCaretLine ↔ (Text.trim source).toList ≠ [])) ∧
    (diagnosis.category = .parser →
      ∃ tokens, tokenize source = .ok tokens ∧ ∃ token ∈ tokens,
        diagnosis.position = token.position ∧
        (∀ other ∈ tokens, diagnosis.position = other.position → other = token) ∧
        (diagnosis.position = (Text.trim source).length ↔ token.isEnd = true) ∧
        ((diagnosis.shown (Text.trim source)).HasCaretLine ↔ token.isEnd = false)) ∧
    (diagnosis.category = .evaluator →
      diagnosis.position = -1 ∧ ¬ (diagnosis.shown (Text.trim source)).HasCaretLine) := by
  rcases interpret_error_cases refused with lexing | ⟨tokens, lexed, stage⟩
  · obtain ⟨category, place, lexical⟩ := diagnosis_of_lexing lexing reported
    rw [category]
    exact ⟨fun _ => place, fun _ => lexical, nofun, nofun⟩
  rcases stage with ⟨name, rfl⟩ | ⟨strategy, parsing⟩ | ⟨cause, rfl⟩
  · cases reported
  · obtain ⟨category, place, syntactic⟩ := diagnosis_of_parsing lexed parsing reported
    rw [category]
    exact ⟨fun _ => place, nofun, fun _ => ⟨tokens, lexed, syntactic⟩, nofun⟩
  · obtain rfl := Option.some.inj reported
    have outside : ¬ Diagnosis.IsInside ⟨.evaluator, cause.message, noPosition⟩
        (Text.trim source) := by simp [Diagnosis.IsInside, noPosition]
    have bare := Diagnosis.not_hasCaretLine outside (Token.caret_notMem_of_tokenize lexed)
    exact ⟨fun other => absurd rfl other, nofun, nofun, fun _ => ⟨rfl, bare⟩⟩

def diagnosisOf? (source strategyName : Text) (cap? : Option Int) : Option Diagnosis :=
  match interpret source strategyName cap? with
  | .ok _ => none
  | .error fault => fault.diagnosis?

theorem exists_fault_of_diagnosis
    (found : diagnosisOf? source strategyName cap? = some diagnosis) :
    ∃ fault, interpret source strategyName cap? = .error fault ∧
      fault.diagnosis? = some diagnosis := by
  unfold diagnosisOf? at found
  cases answer : interpret source strategyName cap? with
  | ok report =>
      rw [answer] at found
      cases found
  | error fault =>
      rw [answer] at found
      exact ⟨fault, rfl, found⟩

def strayOperator : Text :=
  " 1 + * 2"

theorem strayOperator_is_pointed_at :
    ∃ fault diagnosis, interpret strayOperator "top-down" none = .error fault ∧
      fault.diagnosis? = some diagnosis ∧ diagnosis.category = .parser ∧ diagnosis.position = 4 ∧
      (Text.trim strayOperator).IsVisibleAt diagnosis.position := by
  have found : diagnosisOf? strayOperator "top-down" none =
      some ⟨.parser, "Unexpected token: OPERATOR '*'", 4⟩ := by decide +kernel
  obtain ⟨fault, refused, reported⟩ := exists_fault_of_diagnosis found
  obtain ⟨place, -⟩ := diagnosis_points_at_something refused reported
  exact ⟨fault, _, refused, reported, rfl, rfl, (place nofun).2.2 (by decide)⟩

theorem isVisibleAt_of_inside (refused : interpret source strategyName cap? = .error fault)
    (reported : fault.diagnosis? = some diagnosis)
    (inside : diagnosis.IsInside (Text.trim source)) :
    (Text.trim source).IsVisibleAt diagnosis.position := by
  rcases interpret_error_cases refused with lexing | ⟨tokens, lexed, stage⟩
  · obtain ⟨-, place, -⟩ := diagnosis_of_lexing lexing reported
    exact place.2.2 inside.2
  rcases stage with ⟨name, rfl⟩ | ⟨strategy, parsing⟩ | ⟨cause, rfl⟩
  · cases reported
  · obtain ⟨-, place, -⟩ := diagnosis_of_parsing lexed parsing reported
    exact place.2.2 inside.2
  · obtain rfl := Option.some.inj reported
    exact absurd inside.1 (by simp [noPosition])

/-- When a diagnosis points at a character, its last line is a caret in the column that the
character has when the expression is shown on one line. So the caret stands under the character if
the expression has no line break. If it has, only what follows the last line break stands above the
caret, and the caret is under the same character if that stands in the column there, too. -/
theorem caret_points_at_character_unless_lines_break
    (refused : interpret source strategyName cap? = .error fault)
    (reported : fault.diagnosis? = some diagnosis)
    (inside : diagnosis.IsInside (Text.trim source)) :
    ∃ (index : Nat) (glyph : Glyph), diagnosis.position = index ∧
      (Text.trim source).toList[index]? = some glyph ∧ glyph.isIn Text.isBlank = false ∧
      (∃ before above, (diagnosis.shown (Text.trim source)).lines =
        before ++ [above, Text.caretLine (expressionLabel.length + index)]) ∧
      (Glyph.whole '\n' ∉ (Text.trim source).toList →
        (diagnosis.shown (Text.trim source)).PointsAt glyph) ∧
      ∀ front last, (Text.trim source).toList = front ++ .whole '\n' :: last →
        Glyph.whole '\n' ∉ last →
        ((diagnosis.shown (Text.trim source)).PointsAt glyph ↔
          last[expressionLabel.length + index]? = some glyph) := by
  obtain ⟨index, glyph, position, found, notBlank⟩ :=
    isVisibleAt_of_inside refused reported inside
  have column : diagnosis.caretColumn = expressionLabel.length + index := by
    simp [Diagnosis.caretColumn, position]
  refine ⟨index, glyph, position, found, notBlank, ?_, ?_, ?_⟩
  · obtain ⟨heading, lines, -⟩ := Diagnosis.exists_lines_shown diagnosis (Text.trim source)
    obtain ⟨before, last, lastLine, -⟩ := Diagnosis.exists_lines_labelled (Text.trim source)
    exact ⟨heading ++ before, last, by simp [lines inside, lastLine, column]⟩
  · intro oneLine
    rw [Diagnosis.pointsAt_iff_of_notMem inside oneLine, position]
    exact found
  · intro front last parts noBreak
    rw [Diagnosis.pointsAt_iff_of_break inside parts noBreak, column]

def dollarSum : Text :=
  "1 + $ 3"

theorem dollarSum_points_at_dollar :
    ∃ fault diagnosis, interpret dollarSum "top-down" none = .error fault ∧
      fault.diagnosis? = some diagnosis ∧ diagnosis.IsInside (Text.trim dollarSum) ∧
      (diagnosis.shown (Text.trim dollarSum)).PointsAt (.whole '$') := by
  have found : diagnosisOf? dollarSum "top-down" none =
      some ⟨.tokenizer, "Invalid character '$'", 4⟩ := by decide +kernel
  obtain ⟨fault, refused, reported⟩ := exists_fault_of_diagnosis found
  have inside : Diagnosis.IsInside ⟨.tokenizer, "Invalid character '$'", 4⟩
      (Text.trim dollarSum) := ⟨by decide, by decide⟩
  obtain ⟨index, glyph, position, atIndex, -, -, points, -⟩ :=
    caret_points_at_character_unless_lines_break refused reported inside
  obtain rfl : 4 = index := Int.ofNat_inj.mp position
  obtain rfl : Glyph.whole '$' = glyph := Option.some.inj atIndex
  exact ⟨fault, _, refused, reported, inside, points (by decide)⟩

def brokenDollarSum : Text :=
  "1 +\n2 $ 3"

theorem brokenDollarSum_misses_dollar :
    ∃ fault diagnosis, interpret brokenDollarSum "top-down" none = .error fault ∧
      fault.diagnosis? = some diagnosis ∧ diagnosis.position = 6 ∧
      (Text.trim brokenDollarSum).toList[6]? = some (.whole '$') ∧
      ¬ (diagnosis.shown (Text.trim brokenDollarSum)).PointsAt (.whole '$') := by
  have found : diagnosisOf? brokenDollarSum "top-down" none =
      some ⟨.tokenizer, "Invalid character '$'", 6⟩ := by decide +kernel
  obtain ⟨fault, refused, reported⟩ := exists_fault_of_diagnosis found
  have parts : (Text.trim brokenDollarSum).toList =
      "1 +".toList.map Glyph.whole ++ .whole '\n' :: "2 $ 3".toList.map Glyph.whole := by decide
  refine ⟨fault, _, refused, reported, rfl, by decide, ?_⟩
  rw [Diagnosis.pointsAt_iff_of_break ⟨by decide, by decide⟩ parts (by decide)]
  decide

end Positions

end Reckon
