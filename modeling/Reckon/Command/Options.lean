import Reckon.Text.Numeral

/-!
# Options of a command

A command has options that take a value and options that set a switch, and no other arguments. A
value is the next argument, whatever it looks like, or stands behind an equals sign, or behind a
one-letter option without anything between. Later uses of an option win. What does not fit the
options makes the whole line wrong, and so does a value that has to be an integer and is none.
-/

set_option autoImplicit false

namespace Reckon.Command

inductive OptionKind where
  | value
  | switch (setting : Bool)
deriving DecidableEq

structure OptionSpec where
  name : String
  field : String
  kind : OptionKind

inductive Setting where
  | value (text : Text)
  | switch (setting : Bool)
deriving DecidableEq

/-- The fields that the arguments set, the last one first. -/
abbrev Settings := List (String × Setting)

def findOption? (options : List OptionSpec) (name : Text) : Option OptionSpec :=
  options.find? fun option => option.name == name

/-- What is left of the arguments after an option, and what the option set. -/
abbrev Step := Option (Setting × List Text)

/-- The value of an option: given with it, or the next argument. -/
def takeValue (given? : Option Text) (rest : List Text) : Step :=
  match given?, rest with
  | some text, rest => some (.value text, rest)
  | none, text :: rest => some (.value text, rest)
  | none, [] => none

/-- An option that is written with its full name, and a value when there is an equals sign. -/
def applyLong (kind : OptionKind) (given? : Option Text) (rest : List Text) : Step :=
  match kind, given? with
  | .value, _ => takeValue given? rest
  | .switch setting, none => some (.switch setting, rest)
  | .switch _, some _ => none

/-- The name of an argument and the value behind its first equals sign. -/
def splitEquals (argument : List Glyph) : Text × Option Text :=
  match argument.dropWhile (· != Glyph.whole '=') with
  | _ :: value => (⟨argument.takeWhile (· != Glyph.whole '=')⟩, some ⟨value⟩)
  | [] => (⟨argument⟩, none)

/-- A one-letter option with its value right behind it. -/
def applyShort (options : List OptionSpec) (argument : List Glyph) (rest : List Text) :
    Option (String × Setting × List Text) :=
  match argument with
  | .whole '-' :: letter :: value =>
    if letter == '-' then none
    else do
      let option ← findOption? options ⟨['-', letter]⟩
      let given? := if value.isEmpty then none else some ⟨value⟩
      let (setting, behind) ← applyLong option.kind given? rest
      return (option.field, setting, behind)
  | _ => none

def applyOption (options : List OptionSpec) (argument : List Glyph) (rest : List Text) :
    Option (String × Setting × List Text) :=
  let (name, given?) := splitEquals argument
  match (findOption? options name).filter fun option => option.name.startsWith "--" with
  | some option => do
    let (setting, behind) ← applyLong option.kind given? rest
    return (option.field, setting, behind)
  | none => applyShort options argument rest

/-- The settings of the arguments after those that are known. The first argument bounds the
options. -/
def readSettings (options : List OptionSpec) : Nat → Settings → List Text → Option Settings
  | 0, _, _ => none
  | _ + 1, settings, [] => some settings
  | bound + 1, settings, argument :: rest =>
    if argument == "--" then if rest.isEmpty then some settings else none
    else
      match applyOption options argument.toList rest with
      | some (field, setting, behind) =>
        readSettings options bound ((field, setting) :: settings) behind
      | none => none

/-- The settings of the arguments; nothing when they do not fit. -/
def Settings.ofArguments? (options : List OptionSpec) (arguments : List Text) : Option Settings :=
  readSettings options (arguments.length + 1) [] arguments

/-- The digits of a whole number, which may have a point behind them with nothing but zeros behind
it. -/
def wholeDigits (characters : List Char) : List Char :=
  match characters.dropWhile (· != '.') with
  | _ :: fraction =>
    if fraction.all (· == '0') then characters.takeWhile (· != '.') else characters
  | [] => characters

/-- The integer that a value writes: a sign and the digits `0` to `9` of a whole number, with blanks
around them and single underscores between two digits. -/
def readWhole? (value : Text) : Option Int := do
  let (negative, unsigned) := Text.takeSign (Text.trimBy Text.isNumeralBlank value.characters)
  let digits ← Text.withoutUnderscores? false (wholeDigits unsigned)
  if digits.isEmpty || !digits.all Text.isAsciiDigit || Text.longestInteger < digits.length then
    none
  else
    let number : Int := Text.decimalValue digits
    some (if negative then -number else number)

namespace Settings

def text? (settings : Settings) (field : String) : Option Text :=
  match settings.lookup field with
  | some (.value text) => some text
  | _ => none

def switch? (settings : Settings) (field : String) : Option Bool :=
  match settings.lookup field with
  | some (.switch setting) => some setting
  | _ => none

/-- The integer that a field is set to; the line is wrong when the text is no integer. -/
def integer? (settings : Settings) (field : String) : Option (Option Int) :=
  match settings.text? field with
  | none => some none
  | some text => (readWhole? text).map some

end Settings

end Reckon.Command
