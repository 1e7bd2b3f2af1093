import Reckon.Proofs.Json.Numerals
import Reckon.Proofs.Json.Texts

/-!
# Reading what was written

A value written on one line is read back as the same value with its members in order. The proof
follows the value: what is written for it ends where its reader stops, so the parts of a list or an
object are read one after the other. The bound of the reader is twice the length of what it reads,
since every value and every part has a character of its own.
-/

set_option autoImplicit false

namespace Reckon.Json

section Heads

variable {value : Json} {level : Nat}

/-- The first characters of names and numerals. -/
def isScalarHead (character : Char) : Bool :=
  Text.isAsciiDigit character || ['-', 'n', 't', 'f', 'N', 'I'].contains character

/-- The first characters of values. -/
def isHead (character : Char) : Bool :=
  isScalarHead character || ['\x22', '[', '\x7b'].contains character

def StartsWith (inClass : Char → Bool) (characters : List Char) : Prop :=
  ∃ first others, characters = first :: others ∧ inClass first = true

theorem isScalarHead_of_digit {character : Char} (digit : Text.isAsciiDigit character = true) :
    isScalarHead character = true := by
  simp [isScalarHead, digit]

theorem startsWith_signed {negative : Bool} {digits rest : List Char} (isWhole : IsWhole digits) :
    StartsWith isScalarHead (Double.signText negative ++ (digits ++ rest)) := by
  obtain ⟨first, others, rfl⟩ := List.exists_cons_of_ne_nil isWhole.nonempty
  cases negative with
  | true => exact ⟨'-', _, rfl, by decide⟩
  | false =>
      exact ⟨first, _, rfl, isScalarHead_of_digit (isWhole.areDigits first List.mem_cons_self)⟩

theorem integerCharacters_startsWith (value : Int) :
    StartsWith isScalarHead (integerCharacters value) := by
  have starts : StartsWith isScalarHead
      (Double.signText (value < 0) ++ (Double.decimalDigits value.natAbs ++ [])) :=
    startsWith_signed (decimalDigits_isWhole value.natAbs)
  rwa [List.append_nil] at starts

theorem realCharacters_startsWith (value : Double) :
    StartsWith isScalarHead (realCharacters value) := by
  cases value with
  | nan => exact ⟨'N', _, rfl, by decide⟩
  | infinite negative => 
      cases negative with
      | true => exact ⟨'-', _, rfl, by decide⟩
      | false => exact ⟨'I', _, rfl, by decide⟩
  | finite negative code =>
      obtain ⟨whole, ending, layout, isWhole, -⟩ := exists_split_of_finite negative code
      rw [realCharacters, layout]
      · exact startsWith_signed isWhole
      · simp
      · simp

theorem StartsWith.mono {narrow wide : Char → Bool} {characters : List Char}
    (starts : StartsWith narrow characters)
    (wider : ∀ character, narrow character = true → wide character = true) :
    StartsWith wide characters := by
  obtain ⟨first, others, rfl, inNarrow⟩ := starts
  exact ⟨first, others, rfl, wider first inNarrow⟩

theorem bracketed_line (level : Nat) (opening closing : Char) (parts : List (List Char)) :
    bracketed .line level opening closing parts =
      opening :: ([',', ' '].intercalate parts ++ [closing]) := by
  cases parts with
  | nil => rfl
  | cons part others => rfl

theorem characters_list (level : Nat) (items : List Json) :
    characters .line level (.list items) =
      '[' :: ([',', ' '].intercalate (items.map (characters .line (level + 1))) ++ [']']) := by
  rw [characters, bracketed_line, itemCharacters_eq]

def memberText (level : Nat) (member : Text × Json) : List Char :=
  memberCharacters (onValue (characters .line level) member)

theorem characters_object (level : Nat) (members : List (Text × Json)) :
    characters .line level (.object members) =
      '\x7b' :: ([',', ' '].intercalate ((sortMembers members).map (memberText (level + 1))) ++
        ['\x7d']) := by
  rw [characters, bracketed_line, valueCharacters_eq, sortMembers_map, List.map_map]
  rfl

theorem characters_startsWith (level : Nat) (value : Json) :
    StartsWith isHead (value.characters .line level) := by
  have wider : ∀ character, isScalarHead character = true → isHead character = true := by
    intro character isScalar
    simp [isHead, isScalar]
  cases value with
  | null => exact ⟨'n', _, rfl, by decide⟩
  | boolean value => 
      cases value with
      | true => exact ⟨'t', _, rfl, by decide⟩
      | false => exact ⟨'f', _, rfl, by decide⟩
  | integer value => 
      rw [characters]
      exact (integerCharacters_startsWith value).mono wider
  | real value =>
      rw [characters]
      exact (realCharacters_startsWith value).mono wider
  | text value => 
      rw [characters]
      exact ⟨'\x22', _, rfl, by decide⟩
  | list items =>
      rw [characters_list]
      exact ⟨'[', _, rfl, by decide⟩
  | object members =>
      rw [characters_object]
      exact ⟨'\x7b', _, rfl, by decide⟩

theorem not_isSpace_of_isHead {character : Char} (head : isHead character = true) :
    isSpace character = false := by
  by_contra isSpaces
  simp only [isSpace, Bool.not_eq_false, Bool.or_eq_true, beq_iff_eq] at isSpaces
  rcases isSpaces with ((rfl | rfl) | rfl) | rfl <;> cases head

theorem skipSpace_eq_self {characters : List Char} (starts : StartsWith isHead characters) :
    skipSpace characters = characters := by
  obtain ⟨first, others, rfl, head⟩ := starts
  rw [skipSpace, List.dropWhile_cons_of_neg]
  rw [not_isSpace_of_isHead head]
  decide

theorem StartsWith.ne_cons {inClass : Char → Bool} {characters others : List Char}
    {character : Char} (starts : StartsWith inClass characters)
    (outside : inClass character = false) : characters ≠ character :: others := by
  obtain ⟨first, behind, rfl, inside⟩ := starts
  intro same
  rw [(List.cons.inj same).1, outside] at inside
  cases inside

theorem StartsWith.append {inClass : Char → Bool} {characters : List Char}
    (starts : StartsWith inClass characters) (rest : List Char) :
    StartsWith inClass (characters ++ rest) := by
  obtain ⟨first, others, rfl, inside⟩ := starts
  exact ⟨first, others ++ rest, rfl, inside⟩

/-- Parts in a row start like the first of them. -/
theorem startsWith_intercalate {inClass : Char → Bool} {parts : List (List Char)}
    (some : parts ≠ []) (each : ∀ part ∈ parts, StartsWith inClass part) (separator : List Char) :
    StartsWith inClass (separator.intercalate parts) := by
  obtain ⟨part, others, rfl⟩ := List.exists_cons_of_ne_nil some
  have first := each part List.mem_cons_self
  cases others with
  | nil => rwa [List.intercalate_singleton]
  | cons next more =>
      rw [List.intercalate_cons_cons, List.append_assoc]
      exact first.append _

end Heads

section Parts

theorem skipSpace_blank (rest : List Char) : skipSpace (' ' :: rest) = skipSpace rest := rfl

theorem skipSpace_colon (rest : List Char) : skipSpace (':' :: rest) = ':' :: rest := rfl

theorem skipSpace_comma (rest : List Char) : skipSpace (',' :: rest) = ',' :: rest := rfl

variable {levels bound level : Nat} {rest : List Char}

/-- A value is read back from what is written for it by a reader with a bound of twice the
length. -/
def ReadsBack (levels level : Nat) (value : Json) : Prop :=
  ∀ (bound : Nat) (rest : List Char), 2 * (value.characters .line level).length ≤ bound →
    Stops rest →
    readValue bound levels (value.characters .line level ++ rest) = .ok (value.sorted, rest)

theorem items_startWith (level : Nat) {items : List Json} (some : items ≠ []) (rest : List Char) :
    StartsWith isHead
      ([',', ' '].intercalate (items.map (characters .line level)) ++ rest) := by
  apply StartsWith.append
  apply startsWith_intercalate
  · simpa using some
  · intro part member
    obtain ⟨item, -, rfl⟩ := List.mem_map.mp member
    exact characters_startsWith level item

theorem readItems_parts {items : List Json} (some : items ≠ [])
    (each : ∀ item ∈ items, ReadsBack levels level item) (bound : Nat)
    (enough : 2 * ([',', ' '].intercalate (items.map (characters .line level))).length < bound)
    (rest : List Char) :
    readItems bound levels
        ([',', ' '].intercalate (items.map (characters .line level)) ++ ']' :: rest) =
      .ok (items.map sorted, rest) := by
  -- The reader spends one of its bound on each item, and hands what is left to the item itself.
  induction items generalizing bound with
  | nil => exact absurd rfl some
  | cons item others ih =>
      obtain ⟨bound, rfl⟩ := Nat.exists_eq_succ_of_ne_zero (Nat.ne_of_gt (Nat.zero_lt_of_lt enough))
      simp only [List.forall_mem_cons] at each
      obtain ⟨first, behind⟩ := each
      have closes : Stops (']' :: rest) := by simp [Stops]
      have goesOn : ∀ more, Stops (',' :: more) := by simp [Stops]
      rw [readItems]
      cases others with
      | nil =>
          rw [List.map_singleton, List.intercalate_singleton] at enough ⊢
          rw [first bound _ (by omega) closes]
          rfl
      | cons next more =>
          rw [List.map_cons, List.map_cons, List.intercalate_cons_cons, ← List.map_cons] at enough ⊢
          simp only [List.length_append, List.length_cons, List.length_nil] at enough
          have skipped := skipSpace_eq_self
            (items_startWith level (List.cons_ne_nil next more) (']' :: rest))
          have read := ih (by simp) behind bound (by omega)
          simp only [List.append_assoc, List.cons_append, List.nil_append]
          rw [first bound _ (by omega) (goesOn _)]
          simp only [bind, Except.bind, skipSpace_comma, skipSpace_blank, skipped, read]
          rfl

/-- A member with a key of its own comes behind those that are there. -/
theorem setMember_new {α : Type} {key : Text} {members : List (Text × α)}
    (isNew : key ∉ members.map Prod.fst) (value : α) :
    setMember key value members = members ++ [(key, value)] := by
  induction members with
  | nil => rfl
  | cons member others ih =>
      obtain ⟨other, old⟩ := member
      simp only [List.map_cons, List.mem_cons, not_or] at isNew
      rw [setMember, if_neg (by simpa using Ne.symm isNew.1), ih isNew.2]
      rfl

theorem memberText_startsWith (level : Nat) (member : Text × Json) :
    StartsWith isHead (memberText level member) :=
  ⟨'\x22', _, rfl, by decide⟩

theorem members_startWith (level : Nat) {members : List (Text × Json)} (some : members ≠ [])
    (rest : List Char) :
    StartsWith isHead ([',', ' '].intercalate (members.map (memberText level)) ++ rest) := by
  apply StartsWith.append
  apply startsWith_intercalate
  · simpa using some
  · intro part member
    obtain ⟨source, -, rfl⟩ := List.mem_map.mp member
    exact memberText_startsWith level source

theorem length_memberText (level : Nat) (member : Text × Json) :
    (member.2.characters .line level).length < (memberText level member).length := by
  simp only [memberText, memberCharacters, onValue, List.length_append, List.length_cons]
  omega

/-- One member is read, and what stands behind its value decides how the object goes on. -/
theorem readMembers_member {key : Text} {value : Json} (isString : key.IsString)
    (reads : ReadsBack levels level value)
    (enough : 2 * (value.characters .line level).length ≤ bound) (stops : Stops rest)
    (done : List (Text × Json)) :
    readMembers (bound + 1) levels done (memberText level (key, value) ++ rest) =
      match skipSpace rest with
      | '\x7d' :: follows => .ok (setMember key value.sorted done, follows)
      | ',' :: follows =>
        readMembers bound levels (setMember key value.sorted done) (skipSpace follows)
      | other => .error (.malformed .comma other) := by
  have keyRead := readText_textCharacters isString
    (':' :: ' ' :: (value.characters .line level ++ rest))
  have skipped := skipSpace_eq_self ((characters_startsWith level value).append rest)
  have shape : memberText level (key, value) ++ rest =
      textCharacters key ++ (':' :: ' ' :: (value.characters .line level ++ rest)) := by
    simp [memberText, memberCharacters, onValue]
  obtain ⟨others, opens⟩ : ∃ others,
      textCharacters key ++ (':' :: ' ' :: (value.characters .line level ++ rest)) =
        '\x22' :: others := ⟨_, rfl⟩
  rw [opens] at keyRead
  rw [shape, opens, readMembers]
  simp only [keyRead, bind, Except.bind, skipSpace_colon, skipSpace_blank, skipped,
    reads bound rest enough stops]
  rfl

theorem readMembers_parts {members : List (Text × Json)} (some : members ≠ [])
    (done : List (Text × Json)) (distinct : ((done ++ members).map Prod.fst).Nodup)
    (keys : ∀ member ∈ members, member.1.IsString)
    (each : ∀ member ∈ members, ReadsBack levels level member.2) (bound : Nat)
    (enough : 2 * ([',', ' '].intercalate (members.map (memberText level))).length < bound)
    (rest : List Char) :
    readMembers bound levels done
        ([',', ' '].intercalate (members.map (memberText level)) ++ '\x7d' :: rest) =
      .ok (done ++ members.map (onValue sorted), rest) := by
  induction members generalizing bound done with
  | nil => exact absurd rfl some
  | cons member others ih =>
      obtain ⟨bound, rfl⟩ := Nat.exists_eq_succ_of_ne_zero (Nat.ne_of_gt (Nat.zero_lt_of_lt enough))
      obtain ⟨key, value⟩ := member
      simp only [List.forall_mem_cons] at keys each
      have isNew : key ∉ done.map Prod.fst := by
        rw [List.map_append, List.map_cons, List.nodup_middle, List.nodup_cons] at distinct
        exact fun inDone => distinct.1 (List.mem_append_left _ inDone)
      have length : (value.characters .line level).length <
          (memberText level (key, value)).length := length_memberText level (key, value)
      have closes : Stops ('\x7d' :: rest) := by simp [Stops]
      have goesOn : ∀ more, Stops (',' :: more) := by simp [Stops]
      cases others with
      | nil =>
          rw [List.map_singleton, List.intercalate_singleton] at enough ⊢
          rw [readMembers_member keys.1 each.1 (by omega) closes, setMember_new isNew]
          rfl
      | cons next more =>
          rw [List.map_cons, List.map_cons, List.intercalate_cons_cons, ← List.map_cons] at enough ⊢
          simp only [List.length_append, List.length_cons, List.length_nil] at enough
          have skipped := skipSpace_eq_self
            (members_startWith level (List.cons_ne_nil next more) ('\x7d' :: rest))
          have read := ih (by simp) (done ++ [(key, value.sorted)]) (by simpa using distinct)
            keys.2 each.2 bound (by omega)
          simp only [List.append_assoc, List.cons_append, List.nil_append]
          rw [readMembers_member keys.1 each.1 (by omega) (goesOn _), setMember_new isNew]
          simp only [skipSpace_comma, skipSpace_blank, skipped, read]
          simp [onValue]

end Parts

section Values

variable {levels level : Nat} {value : Json}

/-- Names and numerals are left to the reader of scalars. -/
theorem readValue_scalar {characters rest : List Char} {bound : Nat}
    (starts : StartsWith isScalarHead characters) (enough : 2 * characters.length ≤ bound)
    (reads : readScalar (characters ++ rest) = .ok (value, rest)) :
    readValue bound levels (characters ++ rest) = .ok (value, rest) := by
  obtain ⟨first, others, rfl, head⟩ := starts
  simp only [List.length_cons] at enough
  obtain ⟨bound, rfl⟩ := Nat.exists_eq_succ_of_ne_zero (n := bound) (by omega)
  have differs : ∀ {character behind}, isScalarHead character = false →
      first :: (others ++ rest) ≠ character :: behind := by
    intro character behind notHead same
    rw [(List.cons.inj same).1, notHead] at head
    cases head
  rw [List.cons_append, readValue]
  · exact reads
  · exact fun _ => differs (by decide)
  · exact fun _ same _ => differs (by decide) same
  · exact fun _ _ same _ => differs (by decide) same
  · exact fun _ same _ => differs (by decide) same
  · exact fun _ _ same _ => differs (by decide) same

theorem readsBack_of_scalar (starts : StartsWith isScalarHead (value.characters .line level))
    (same : value.sorted = value)
    (reads : ∀ rest, Stops rest →
      readScalar (value.characters .line level ++ rest) = .ok (value, rest)) :
    ReadsBack levels level value := by
  intro bound rest enough stops
  rw [same]
  exact readValue_scalar starts enough (reads rest stops)

theorem readsBack_list {items : List Json}
    (each : ∀ item ∈ items, ReadsBack levels (level + 1) item) :
    ReadsBack (levels + 1) level (.list items) := by
  intro bound rest enough stops
  rw [characters_list] at enough ⊢
  simp only [List.length_cons, List.length_append, List.length_nil] at enough
  obtain ⟨bound, rfl⟩ := Nat.exists_eq_succ_of_ne_zero (n := bound) (by omega)
  rw [sorted_list, List.cons_append, List.append_assoc, List.singleton_append, readValue]
  cases items with
  | nil => rfl
  | cons item others =>
      have some := List.cons_ne_nil item others
      have skipped := skipSpace_eq_self (items_startWith (level + 1) some (']' :: rest))
      have read := readItems_parts some each bound (by omega) rest
      rw [skipped]
      split
      next after closes =>
        exact absurd closes ((items_startWith (level + 1) some (']' :: rest)).ne_cons (by decide))
      next =>
        rw [read]
        rfl

theorem readsBack_object {members : List (Text × Json)} (distinct : (members.map Prod.fst).Nodup)
    (keys : ∀ member ∈ members, member.1.IsString)
    (each : ∀ member ∈ members, ReadsBack levels (level + 1) member.2) :
    ReadsBack (levels + 1) level (.object members) := by
  intro bound rest enough stops
  have order := sortMembers_perm members
  rw [characters_object] at enough ⊢
  rw [sorted_object]
  simp only [List.length_cons, List.length_append, List.length_nil] at enough
  obtain ⟨bound, rfl⟩ := Nat.exists_eq_succ_of_ne_zero (n := bound) (by omega)
  rw [List.cons_append, List.append_assoc, List.singleton_append, readValue]
  -- Nothing else counts of the order than that it has the same members.
  have distinct := nodup_keys_sortMembers distinct
  have keys := fun member inSorted => keys member (order.mem_iff.mp inSorted)
  have each := fun member inSorted => each member (order.mem_iff.mp inSorted)
  generalize sortMembers members = members at *
  cases members with
  | nil => rfl
  | cons member others =>
      have some := List.cons_ne_nil member others
      have starts := members_startWith (level + 1) some ('\x7d' :: rest)
      have read := readMembers_parts some [] distinct keys each bound (by omega) rest
      rw [skipSpace_eq_self starts]
      split
      next after closes => exact absurd closes (starts.ne_cons (by decide))
      next =>
        rw [read]
        rfl

theorem readsBack_text {text : Text} (isString : text.IsString) :
    ReadsBack levels level (.text text) := by
  intro bound rest enough stops
  rw [characters] at enough ⊢
  simp only [textCharacters, List.length_cons] at enough
  obtain ⟨bound, rfl⟩ := Nat.exists_eq_succ_of_ne_zero (n := bound) (by omega)
  have read := readText_textCharacters isString rest
  obtain ⟨others, opens⟩ : ∃ others, textCharacters text ++ rest = '\x22' :: others := ⟨_, rfl⟩
  rw [opens] at read ⊢
  rw [readValue, read]
  rfl

theorem IsProper.readsBack (proper : value.IsProper) (within : value.IsWithin levels) :
    ReadsBack levels level value := by
  induction proper generalizing levels level with
  | null => exact readsBack_of_scalar ⟨'n', _, rfl, by decide⟩ rfl fun _ _ => rfl
  | @boolean value =>
      cases value with
      | true => exact readsBack_of_scalar ⟨'t', _, rfl, by decide⟩ rfl fun _ _ => rfl
      | false => exact readsBack_of_scalar ⟨'f', _, rfl, by decide⟩ rfl fun _ _ => rfl
  | @integer value =>
      cases within with
      | integer short =>
          apply readsBack_of_scalar
          · exact integerCharacters_startsWith value
          · rfl
          · exact fun _ stops => readScalar_integer short stops
  | @real value =>
      apply readsBack_of_scalar
      · exact realCharacters_startsWith value
      · rfl
      · exact fun _ stops => readScalar_real stops
  | text isString => exact readsBack_text isString
  | list _ ih =>
      cases within with
      | list each => exact readsBack_list fun item member => ih item member (each item member)
  | object distinct keys _ ih =>
      cases within with
      | object each =>
          exact readsBack_object distinct keys fun member inside =>
            ih member inside (each member inside)

/-- A value is read back from its line, with its members in order. -/
theorem readWithin_line (proper : value.IsProper) (within : IsWithin levels value) :
    readWithin levels value.line.toList = .ok value.sorted := by
  have starts := characters_startsWith 0 value
  have readsBack : ReadsBack levels 0 value := proper.readsBack within
  have read := readsBack (2 * (value.characters .line 0).length + 2) [] (by omega)
    (by simp [Stops])
  rw [List.append_nil] at read
  rw [readWithin, line, String.toList_ofList]
  unfold readAll
  split
  next others mark => exact absurd mark (starts.ne_cons (by decide))
  next =>
    rw [skipSpace_eq_self starts, read]
    rfl

end Values

end Reckon.Json
