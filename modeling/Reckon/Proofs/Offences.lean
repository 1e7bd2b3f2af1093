import Reckon.Proofs.Spellings

/-!
# Lexical offences

What the lexer refuses, said of the text alone. An offence is a character that no lexeme begins
with, a run of digits and points with a second point, or one that ends in its only point. A text
without an offence is lexed, and one with an offence is refused for the first of them: what stands
in front of it is blank or could be lexed by itself.
-/

set_option autoImplicit false

namespace Reckon

/-- The cause is a run of digits and points. -/
def LexicalCause.isAboutNumeral : LexicalCause → Bool
  | .secondPoint | .finalPoint _ => true
  | _ => false

namespace Token

/-- The operators and parentheses. -/
def markGlyphs : List Glyph :=
  ['+', '-', '*', '/', '(', ')']

/-- What is wrong at the front of some glyphs, and how far behind their start. -/
inductive Offends : LexicalCause → Nat → List Glyph → Prop where
  | strangeCharacter {glyph : Glyph} {rest : List Glyph} :
      glyph.isIn Text.isBlank = false → glyph.isIn Text.isAsciiDigit = false →
      glyph ≠ .whole '.' → glyph ∉ markGlyphs →
      Offends (.strangeCharacter glyph) 0 (glyph :: rest)
  | secondPoint {whole between behind rest : List Glyph} :
      (∀ glyph ∈ whole, glyph.isIn Text.isAsciiDigit = true) →
      (∀ glyph ∈ between, glyph.isIn Text.isAsciiDigit = true) →
      (∀ glyph ∈ behind, isNumeralGlyph glyph = true) → EndsNumeral rest →
      Offends .secondPoint (whole.length + 1 + between.length)
        (whole ++ .whole '.' :: (between ++ .whole '.' :: (behind ++ rest)))
  | finalPoint {whole rest : List Glyph} :
      (∀ glyph ∈ whole, glyph.isIn Text.isAsciiDigit = true) → EndsNumeral rest →
      Offends (.finalPoint ⟨whole ++ [.whole '.']⟩) 0 (whole ++ .whole '.' :: rest)

theorem singleKind?_eq_none_iff {glyph : Glyph} :
    singleKind? glyph = none ↔ glyph ∉ markGlyphs := by
  constructor
  · intro unknown member
    simp only [markGlyphs, List.mem_cons, List.not_mem_nil, or_false] at member
    rcases member with rfl | rfl | rfl | rfl | rfl | rfl <;> cases unknown
  · intro notMark
    unfold singleKind?
    split <;> first | rfl | exact absurd (by simp [markGlyphs]) notMark

theorem isNumeralGlyph_of_digit {glyph : Glyph} (digit : glyph.isIn Text.isAsciiDigit = true) :
    isNumeralGlyph glyph = true := by
  simp [isNumeralGlyph, digit]

theorem not_isNumeralGlyph {glyph : Glyph} (notDigit : glyph.isIn Text.isAsciiDigit = false)
    (notPoint : glyph ≠ .whole '.') : isNumeralGlyph glyph = false := by
  simp [isNumeralGlyph, notDigit, notPoint]

section Numerals

variable {whole between behind run : List Glyph} {position : Nat}

theorem numeral_of_two (areWhole : ∀ glyph ∈ whole, glyph.isIn Text.isAsciiDigit = true)
    (areBetween : ∀ glyph ∈ between, glyph.isIn Text.isAsciiDigit = true) :
    numeral (whole ++ .whole '.' :: (between ++ .whole '.' :: behind)) position =
      .error (.lexical .secondPoint (position + (whole.length + 1 + between.length) : Nat)) := by
  rw [numeral, secondPoint?_of_two (point_notMem_of_digits areWhole)
    (point_notMem_of_digits areBetween)]

theorem numeral_of_final (areWhole : ∀ glyph ∈ whole, glyph.isIn Text.isAsciiDigit = true) :
    numeral (whole ++ [.whole '.']) position =
      .error (.lexical (.finalPoint ⟨whole ++ [.whole '.']⟩) position) := by
  rw [numeral, secondPoint?_of_one (point_notMem_of_digits areWhole) (by simp)]
  exact if_pos (by simp)

/-- A run that is refused has an offence at its front, whatever ends it. -/
theorem offends_of_numeral_error {fault : Fault}
    (plain : ∀ glyph ∈ run, isNumeralGlyph glyph = true)
    (refused : numeral run position = .error fault) :
    ∃ cause offset, cause.isAboutNumeral = true ∧ fault = .lexical cause (position + offset : Nat) ∧
      ∀ rest, EndsNumeral rest → Offends cause offset (run ++ rest) := by
  have digits : ∀ {part : List Glyph}, part ⊆ run → Glyph.whole '.' ∉ part →
      ∀ glyph ∈ part, glyph.isIn Text.isAsciiDigit = true := by
    intro part subset noPoint glyph member
    exact isIn_digit_of_isNumeralGlyph (plain glyph (subset member))
      (ne_of_mem_of_not_mem member noPoint)
  by_cases pointed : Glyph.whole '.' ∈ run
  · obtain ⟨whole, behind, rfl, noPoint⟩ := List.eq_append_cons_of_mem pointed
    have areWhole := digits (List.subset_append_left _ _) noPoint
    by_cases pointedAgain : Glyph.whole '.' ∈ behind
    · obtain ⟨between, behind, rfl, noOther⟩ := List.eq_append_cons_of_mem pointedAgain
      have areBetween := digits (by intro glyph member; simp [member]) noOther
      have areBehind : ∀ glyph ∈ behind, isNumeralGlyph glyph = true :=
        fun glyph member => plain glyph (by simp [member])
      rw [numeral_of_two areWhole areBetween] at refused
      cases refused
      refine ⟨.secondPoint, _, rfl, rfl, fun rest ends => ?_⟩
      simpa using Offends.secondPoint areWhole areBetween areBehind ends
    · -- With a single point, only one at the end is refused.
      cases behind with
      | nil =>
          rw [numeral_of_final areWhole] at refused
          cases refused
          refine ⟨_, 0, rfl, rfl, fun rest ends => ?_⟩
          simpa using Offends.finalPoint areWhole ends
      | cons first others =>
          have final : (whole ++ .whole '.' :: first :: others).getLast? ≠ some (.whole '.') := by
            intro last
            rw [List.getLast?_append_of_ne_nil _ (by simp),
              List.getLast?_cons_of_ne_nil (by simp)] at last
            exact pointedAgain (List.mem_of_getLast? last)
          rw [numeral, secondPoint?_of_one noPoint pointedAgain] at refused
          cases (if_neg final).symm.trans refused
  · have final : run.getLast? ≠ some (.whole '.') := fun last =>
      pointed (List.mem_of_getLast? last)
    rw [numeral, secondPoint?_of_notMem pointed] at refused
    cases (if_neg final).symm.trans refused

end Numerals

namespace Offends

variable {cause : LexicalCause} {offset position : Nat} {glyphs : List Glyph}

/-- An offence is reported at one of its own glyphs, and never at a blank. -/
theorem exists_glyph (offends : Offends cause offset glyphs) :
    ∃ glyph, glyphs[offset]? = some glyph ∧ glyph.isIn Text.isBlank = false := by
  cases offends with
  | @strangeCharacter glyph rest notBlank => exact ⟨glyph, rfl, notBlank⟩
  | @secondPoint whole between behind rest =>
      refine ⟨.whole '.', ?_, by decide⟩
      rw [List.getElem?_append_right (by omega)]
      simp [show whole.length + 1 + between.length - whole.length = between.length + 1 by omega]
  | @finalPoint whole rest areWhole =>
      cases whole with
      | nil => exact ⟨.whole '.', rfl, by decide⟩
      | cons first others =>
          have plain := isNumeralGlyph_of_digit (areWhole first (by simp))
          exact ⟨first, rfl, not_blank_of_isNumeralGlyph plain⟩

/-- A numeral may end in front of an offence unless the offence goes on with it. -/
theorem endsNumeral_iff (offends : Offends cause offset glyphs) :
    EndsNumeral glyphs ↔ cause.isAboutNumeral = false := by
  have begins : ∀ {whole rest : List Glyph},
      (∀ glyph ∈ whole, glyph.isIn Text.isAsciiDigit = true) →
      ¬ EndsNumeral (whole ++ .whole '.' :: rest) := by
    intro whole rest digits ends
    cases whole with
    | nil => exact absurd (endsNumeral_cons.mp ends) (by decide)
    | cons first others =>
        have plain := isNumeralGlyph_of_digit (digits first (by simp))
        rw [List.cons_append, endsNumeral_cons, plain] at ends
        cases ends
  cases offends with
  | strangeCharacter _ notDigit notPoint _ =>
      exact iff_of_true (endsNumeral_cons.mpr (not_isNumeralGlyph notDigit notPoint)) rfl
  | secondPoint areWhole => exact iff_of_false (begins areWhole) nofun
  | finalPoint areWhole => exact iff_of_false (begins areWhole) nofun

/-- An offence at the front is reported. -/
theorem scan_eq (offends : Offends cause offset glyphs) :
    scan position glyphs = .error (.lexical cause (position + offset : Nat)) := by
  cases offends with
  | @strangeCharacter glyph rest notBlank notDigit notPoint notMark =>
      rw [scan, notBlank, not_isNumeralGlyph notDigit notPoint,
        singleKind?_eq_none_iff.mpr notMark]
      rfl
  | @secondPoint whole between behind rest areWhole areBetween areBehind ends =>
      have plain : ∀ glyph ∈ whole ++ .whole '.' :: (between ++ .whole '.' :: behind),
          isNumeralGlyph glyph = true := by
        intro glyph member
        simp only [List.mem_append, List.mem_cons] at member
        rcases member with inWhole | rfl | inBetween | rfl | inBehind
        · exact isNumeralGlyph_of_digit (areWhole glyph inWhole)
        · decide
        · exact isNumeralGlyph_of_digit (areBetween glyph inBetween)
        · decide
        · exact areBehind glyph inBehind
      have shape : whole ++ .whole '.' :: (between ++ .whole '.' :: (behind ++ rest)) =
          (whole ++ .whole '.' :: (between ++ .whole '.' :: behind)) ++ rest := by simp
      rw [shape, scan_run (by simp) plain ends, numeral_of_two areWhole areBetween]
      rfl
  | @finalPoint whole rest areWhole ends =>
      have plain : ∀ glyph ∈ whole ++ [.whole '.'], isNumeralGlyph glyph = true := by
        intro glyph member
        rcases List.mem_append.mp member with inWhole | isPoint
        · exact isNumeralGlyph_of_digit (areWhole glyph inWhole)
        · obtain rfl := List.mem_singleton.mp isPoint
          decide
      have shape : whole ++ .whole '.' :: rest = (whole ++ [.whole '.']) ++ rest := by simp
      rw [shape, scan_run (by simp) plain ends, numeral_of_final areWhole]
      rfl

end Offends

section Scan

variable {position : Nat} {glyphs front rest : List Glyph} {tokens : List Token} {fault : Fault}
  {cause : LexicalCause} {offset : Nat}

/-- A numeral does not end in its point. -/
theorem isIn_digit_of_getLast? {text : Text} (isNumeral : text.IsNumeral) :
    ∀ glyph ∈ text.toList.getLast?, glyph.isIn Text.isAsciiDigit = true := by
  intro glyph isLast
  refine isIn_digit_of_isNumeralGlyph
    (isNumeral.isNumeralGlyph glyph (List.mem_of_getLast? isLast)) ?_
  rintro rfl
  -- Otherwise the numeral would have been refused for its last point.
  have made := numeral_eq_ok isNumeral 0
  unfold numeral at made
  split at made
  · cases made
  · cases (if_pos isLast).symm.trans made

/-- From a position on there are lexemes and blanks, and then an offence. -/
inductive Stumbles (cause : LexicalCause) (place : Int) : Int → List Glyph → Prop where
  | here {position : Int} {offset : Nat} {glyphs : List Glyph} :
      Offends cause offset glyphs → place = position + offset → Stumbles cause place position glyphs
  | blank {position : Int} {glyph : Glyph} {rest : List Glyph} :
      glyph.isIn Text.isBlank = true → Stumbles cause place (position + 1) rest →
      Stumbles cause place position (glyph :: rest)
  | lexeme {token : Token} {rest : List Glyph} :
      token.IsLexeme → (token.kind = .number → EndsNumeral rest) →
      Stumbles cause place (token.position + token.text.length) rest →
      Stumbles cause place token.position (token.text.toList ++ rest)

namespace Stumbles

variable {cause : LexicalCause} {place start : Int}

theorem scan_eq (stumbles : Stumbles cause place start glyphs) (starts : start = position) :
    scan position glyphs = .error (.lexical cause place) := by
  induction stumbles generalizing position with
  | here offends isPlace => rw [offends.scan_eq, isPlace, starts, Int.natCast_add]
  | blank isBlank _ ih =>
      rw [scan_blank isBlank]
      exact ih (by omega)
  | lexeme isLexeme ends _ ih =>
      rw [scan_lexeme isLexeme ends starts, ih (by omega)]
      rfl

theorem behind_token {token : Token} (isLexeme : token.IsLexeme) (starts : token.position = start)
    (shape : glyphs = token.text.toList ++ rest) (ends : token.kind = .number → EndsNumeral rest)
    (behind : Stumbles cause place (start + token.text.toList.length) rest) :
    Stumbles cause place start glyphs := by
  subst starts shape
  exact .lexeme isLexeme ends behind

end Stumbles

theorem stumbles_of_scan (refused : scan position glyphs = .error fault) :
    ∃ cause place, fault = .lexical cause place ∧ Stumbles cause place position glyphs := by
  fun_induction scan position glyphs with
  | case1 => cases refused
  | case2 position glyph rest blank ih =>
      obtain ⟨cause, place, rfl, stumbles⟩ := ih refused
      exact ⟨cause, place, rfl, .blank blank (by simpa using stumbles)⟩
  | case3 position glyph rest notBlank plain run =>
      rename_i ih
      have parts : glyph :: rest = run ++ rest.dropWhile isNumeralGlyph := by
        simp [run, List.takeWhile_append_dropWhile]
      have runPlain : ∀ glyph ∈ run, isNumeralGlyph glyph = true :=
        isNumeralGlyph_of_mem_run plain
      have ends : EndsNumeral (rest.dropWhile isNumeralGlyph) := endsNumeral_dropWhile rest
      rcases except_bind_error refused with numeralRefused | ⟨token, made, refused⟩
      · obtain ⟨cause, offset, -, rfl, offends⟩ := offends_of_numeral_error runPlain numeralRefused
        exact ⟨cause, _, rfl, .here (parts ▸ offends _ ends) (Int.natCast_add ..)⟩
      · rcases except_bind_error refused with restRefused | ⟨_, _, refused⟩
        · obtain ⟨cause, place, rfl, stumbles⟩ := ih restRefused
          have isNumeral := numeral_isNumeral (by simp [run]) runPlain made
          obtain rfl := eq_of_numeral_eq_ok made
          exact ⟨cause, place, rfl, .behind_token (.numeral isNumeral) rfl parts (fun _ => ends)
            (by simpa using stumbles)⟩
        · cases refused
  | case4 position glyph rest notBlank notPlain strange =>
      cases refused
      obtain ⟨notDigit, notPoint⟩ : glyph.isIn Text.isAsciiDigit = false ∧ glyph ≠ .whole '.' := by
        simpa [isNumeralGlyph] using notPlain
      have offends : Offends _ 0 (glyph :: rest) := .strangeCharacter (by simpa using notBlank)
        notDigit notPoint (singleKind?_eq_none_iff.mp strange)
      exact ⟨_, _, rfl, .here offends (by simp)⟩
  | case5 position glyph rest notBlank notPlain kind found ih =>
      rcases except_bind_error refused with restRefused | ⟨_, _, refused⟩
      · obtain ⟨cause, place, rfl, stumbles⟩ := ih restRefused
        have isNumber : kind ≠ .number := by
          rintro rfl
          unfold singleKind? at found
          split at found <;> cases found
        exact ⟨cause, place, rfl, .behind_token (singleKind?_isLexeme found position) rfl rfl
          (fun isNumeral => absurd isNumeral isNumber) (by simpa using stumbles)⟩
      · cases refused

/-- Scanning refuses exactly what stumbles, and reports the offence that it stumbles over. -/
theorem scan_eq_error_iff :
    scan position glyphs = .error fault ↔
      ∃ cause place, fault = .lexical cause place ∧ Stumbles cause place position glyphs := by
  constructor
  · exact stumbles_of_scan
  · rintro ⟨cause, place, rfl, stumbles⟩
    exact stumbles.scan_eq rfl

end Scan

section Fronts

variable {cause : LexicalCause} {offset : Nat} {position : Int} {tokens : List Token}
  {glyphs front offence : List Glyph}

/-- Glyphs that a text may begin with in front of an offence: they are blank, or a source. -/
def IsClean (glyphs : List Glyph) : Prop :=
  (∀ glyph ∈ glyphs, glyph.isIn Text.isBlank = true) ∨ ∃ tokens, tokenize ⟨glyphs⟩ = .ok tokens

theorem Spells.blank_of_nil (spells : Spells position tokens glyphs) (none : tokens = []) :
    ∀ glyph ∈ glyphs, glyph.isIn Text.isBlank = true := by
  induction spells with
  | done => simp
  | blank isBlank _ ih => simpa [isBlank] using ih none
  | lexeme => cases none

/-- A front is clean if some tokens spell it, whatever position it begins at. -/
theorem isClean_iff (position : Int) :
    IsClean glyphs ↔ ∃ tokens, Spells position tokens glyphs := by
  constructor
  · rintro (blank | ⟨tokens, lexed⟩)
    · exact ⟨[], spells_nil_of_blank blank⟩
    · obtain ⟨lexemes, -, -, spells⟩ := exists_spells_of_tokenize lexed position
      exact ⟨_, spells⟩
  · rintro ⟨tokens, spells⟩
    cases tokens with
    | nil => exact .inl (spells.blank_of_nil rfl)
    | cons first others =>
        have moved := spells.moved (-(Text.leading ⟨glyphs⟩).length - position)
        rw [show position + (-(Text.leading ⟨glyphs⟩).length - position : Int) =
          -(Text.leading ⟨glyphs⟩).length by omega] at moved
        exact .inr ⟨_, moved.tokenize_eq (by simp)⟩

/-- What stumbles has an offence behind tokens that are spelled in front of it, and an offence that
is a numeral begins there. -/
theorem Stumbles.exists_front {place : Int} (stumbles : Stumbles cause place position glyphs) :
    ∃ front offence offset tokens, glyphs = front ++ offence ∧ Spells position tokens front ∧
      Offends cause offset offence ∧
      (cause.isAboutNumeral = true → ∀ glyph ∈ front.getLast?, isNumeralGlyph glyph = false) ∧
      place = position + (front.length + offset : Nat) := by
  induction stumbles with
  | @here position offset glyphs offends isPlace =>
      exact ⟨[], glyphs, offset, [], rfl, .done, offends, by simp, by simpa using isPlace⟩
  | @blank position glyph rest isBlank _ ih =>
      obtain ⟨front, offence, offset, tokens, rfl, spells, offends, apart, rfl⟩ := ih
      refine ⟨glyph :: front, offence, offset, tokens, rfl, .blank isBlank spells, offends, ?_, ?_⟩
      · intro isNumeral last isLast
        cases front with
        | nil =>
            obtain rfl : glyph = last := by simpa using isLast
            exact not_isNumeralGlyph_of_blank isBlank
        | cons first others =>
            rw [List.getLast?_cons_of_ne_nil (by simp)] at isLast
            exact apart isNumeral last isLast
      · simp only [List.length_cons]
        omega
  | @lexeme token rest isLexeme ends _ ih =>
      obtain ⟨front, offence, offset, tokens, rfl, spells, offends, apart, rfl⟩ := ih
      refine ⟨token.text.toList ++ front, offence, offset, token :: tokens,
        (List.append_assoc ..).symm, .lexeme isLexeme (fun kind => (ends kind).of_append) spells,
        offends, ?_, ?_⟩
      · intro isNumeral last isLast
        cases front with
        | nil =>
            have inToken : last ∈ token.text.toList := by
              simpa using List.mem_of_getLast? isLast
            -- Behind a numeral no other numeral begins.
            cases plain : isNumeralGlyph last with
            | false => rfl
            | true =>
                have blocked := ends ((isLexeme.isNumeralGlyph_iff inToken).mp plain)
                rw [List.nil_append, offends.endsNumeral_iff, isNumeral] at blocked
                cases blocked
        | cons first others =>
            rw [List.getLast?_append_of_ne_nil _ (by simp)] at isLast
            exact apart isNumeral last isLast
      · simp only [List.length_append, Text.length]
        omega

/-- What comes behind tokens stumbles over an offence, unless the offence goes on with the last of
them. -/
theorem Spells.stumbles (spells : Spells position tokens front)
    (offends : Offends cause offset offence)
    (apart : cause.isAboutNumeral = true →
      ∀ glyph ∈ front.getLast?, glyph.isIn Text.isAsciiDigit = false) :
    Stumbles cause (position + (front.length + offset : Nat)) position (front ++ offence) := by
  induction spells with
  | done => exact .here offends (by simp)
  | @blank position tokens glyph rest isBlank _ ih =>
      refine .blank isBlank ?_
      have place : position + ((glyph :: rest).length + offset : Nat) =
          position + 1 + (rest.length + offset : Nat) := by
        simp only [List.length_cons]
        omega
      rw [place]
      refine ih fun isNumeral last isLast => apart isNumeral last ?_
      rwa [List.getLast?_cons_of_ne_nil (List.ne_nil_of_mem (List.mem_of_getLast? isLast))]
  | @lexeme token tokens rest isLexeme ends _ ih =>
      rw [List.append_assoc]
      have place : token.position + ((token.text.toList ++ rest).length + offset : Nat) =
          token.position + token.text.length + (rest.length + offset : Nat) := by
        simp only [List.length_append, Text.length]
        omega
      rw [place]
      refine .lexeme isLexeme (fun kind => ?_) (ih fun isNumeral last isLast =>
        apart isNumeral last ?_)
      · cases rest with
        | cons first others => exact endsNumeral_cons.mpr (endsNumeral_cons.mp (ends kind))
        | nil =>
            rw [List.nil_append, offends.endsNumeral_iff]
            cases isNumeral : cause.isAboutNumeral with
            | false => rfl
            | true =>
                -- The numeral ends in a digit, and so does the front.
                have isNumber := (isLexeme.isNumeral_of_kind kind).text
                obtain ⟨last, isLast⟩ : ∃ last, token.text.toList.getLast? = some last :=
                  ⟨_, List.getLast?_eq_some_getLast isNumber.toList_ne_nil⟩
                have notDigit := apart isNumeral last (by simpa using isLast)
                rw [isIn_digit_of_getLast? isNumber last isLast] at notDigit
                cases notDigit
      · rwa [List.getLast?_append_of_ne_nil _ (List.ne_nil_of_mem (List.mem_of_getLast? isLast))]

end Fronts

section Tokenize

variable {source : Text} {fault : Fault}

/-- A source that is not empty is refused for what the scanner stumbles over. -/
theorem tokenize_eq_error_iff (nonempty : (Text.trim source).toList ≠ []) :
    tokenize source = .error fault ↔ scan 0 (Text.trim source).toList = .error fault := by
  obtain ⟨glyph, rest, shape⟩ := List.exists_cons_of_ne_nil nonempty
  unfold tokenize
  split
  case h_1 empty => exact absurd empty nonempty
  case h_2 glyphs _ =>
    cases scanned : scan 0 (Text.trim source).toList with
    | error cause => exact ⟨fun refused => refused, fun refused => refused⟩
    | ok tokens =>
        have some := scan_ne_nil (trim_head_not_blank shape) (shape ▸ scanned)
        refine iff_of_false ?_ nofun
        change ¬ (if tokens.isEmpty then _ else _) = _
        rw [if_neg (by simpa using some)]
        nofun

/-- Lexing reports the first offence. When a source that is not empty is refused, then its trimmed
text is a clean front with an offence behind it, the report is about that offence, and if it is a
run of digits and points, the run begins there. Conversely every offence behind a clean front is
what is reported, provided that a run of digits and points does not continue a number in front. -/
theorem tokenize_reports_first_offence (source : Text)
    (nonempty : (Text.trim source).toList ≠ []) :
    (∀ fault, tokenize source = .error fault →
      ∃ front offence cause offset, (Text.trim source).toList = front ++ offence ∧
        IsClean front ∧ Offends cause offset offence ∧
        (cause.isAboutNumeral = true →
          ∀ glyph ∈ front.getLast?, isNumeralGlyph glyph = false) ∧
        fault = .lexical cause (front.length + offset : Nat)) ∧
    ∀ front offence cause offset, (Text.trim source).toList = front ++ offence →
      IsClean front → Offends cause offset offence →
      (cause.isAboutNumeral = true →
        ∀ glyph ∈ front.getLast?, glyph.isIn Text.isAsciiDigit = false) →
      tokenize source = .error (.lexical cause (front.length + offset : Nat)) := by
  constructor
  · intro fault refused
    obtain ⟨cause, place, rfl, stumbles⟩ :=
      scan_eq_error_iff.mp ((tokenize_eq_error_iff nonempty).mp refused)
    obtain ⟨front, offence, offset, tokens, shape, spells, offends, apart, rfl⟩ :=
      stumbles.exists_front
    refine ⟨front, offence, cause, offset, shape, (isClean_iff _).mpr ⟨tokens, spells⟩, offends,
      apart, by simp⟩
  · intro front offence cause offset shape clean offends apart
    obtain ⟨tokens, spells⟩ := (isClean_iff 0).mp clean
    refine (tokenize_eq_error_iff nonempty).mpr (scan_eq_error_iff.mpr ⟨_, _, rfl, ?_⟩)
    rw [shape]
    simpa using spells.stumbles offends apart

def doublePoint : Text :=
  " 12 + 1.2.3 $"

theorem doublePoint_reports_first_offence :
    (Text.trim doublePoint).toList ≠ [] ∧
      tokenize doublePoint = .error (.lexical .secondPoint 8) ∧
      ∃ front offence, (Text.trim doublePoint).toList = front ++ offence ∧ IsClean front ∧
        ∃ offset, front.length + offset = 8 ∧ Offends .secondPoint offset offence := by
  have nonempty : (Text.trim doublePoint).toList ≠ [] := by decide
  have refused : tokenize doublePoint = .error (.lexical .secondPoint 8) := by decide +kernel
  obtain ⟨front, offence, cause, offset, shape, clean, offends, -, reported⟩ :=
    (tokenize_reports_first_offence doublePoint nonempty).1 _ refused
  obtain ⟨rfl, place⟩ := Fault.lexical.inj reported
  exact ⟨nonempty, refused, front, offence, shape, clean, offset, by omega, offends⟩

end Tokenize

end Token

end Reckon
