import Reckon.Datum
import Reckon.Document.Fault

/-!
# Days and moments of a document

A day is spelled with a year of four digits and two digits each for the month and the day. With a
time behind it the month and the day may have one digit; the time has a fraction and an offset if it
likes, and an offset is a zed or a sign with hours and perhaps minutes.
-/

set_option autoImplicit false

namespace Reckon.Document

/-- The digits that come first, when there are at least so many; no more than so many are taken. -/
def takeDigits? (least most : Nat) (characters : List Char) : Option (List Char × List Char) :=
  let digits := (characters.take most).takeWhile Text.isAsciiDigit
  if digits.length < least then none else some (digits, characters.drop digits.length)

/-- A number of at least and at most so many digits, and what follows it. -/
def takeNumber? (least most : Nat) (characters : List Char) : Option (Nat × List Char) :=
  (takeDigits? least most characters).map fun (digits, rest) => (Text.decimalValue digits, rest)

def skipMark? (mark : Char) : List Char → Option (List Char)
  | first :: rest => if first == mark then some rest else none
  | [] => none

def isMomentBlank (character : Char) : Bool :=
  character == ' ' || character == '\t'

/-- What follows the mark or the blanks between a day and a time. -/
def skipTimeMark? : List Char → Option (List Char)
  | first :: rest =>
    if first == 'T' || first == 't' then some rest
    else if isMomentBlank first then some (rest.dropWhile isMomentBlank)
    else none
  | [] => none

/-- The millionths that the digits behind a point write; further digits are dropped. -/
def millionths (digits : List Char) : Nat :=
  let leading := digits.take 6
  Text.decimalValue leading * Nat.pow 10 (6 - leading.length)

def takeFraction : List Char → Nat × List Char
  | '.' :: rest =>
    (millionths (rest.takeWhile Text.isAsciiDigit), rest.dropWhile Text.isAsciiDigit)
  | characters => (0, characters)

/-- The minutes of an offset behind its sign, with nothing behind them. -/
def offsetMinutes? (characters : List Char) : Option Nat := do
  let (hours, rest) ← takeNumber? 1 2 characters
  if rest.isEmpty then return hours * 60
  else
    let (minutes, behind) ← takeNumber? 2 2 (← skipMark? ':' rest)
    if behind.isEmpty then return hours * 60 + minutes else none

/-- The offset at the end of a moment, when there is one. -/
def momentOffset? (characters : List Char) : Option (Option Int) :=
  match characters, characters.dropWhile isMomentBlank with
  | [], _ => some none
  | _, ['Z'] => some (some 0)
  | _, '+' :: rest => (offsetMinutes? rest).map fun minutes => some (minutes : Int)
  | _, '-' :: rest => (offsetMinutes? rest).map fun minutes => some (-(minutes : Int))
  | _, _ => none

def readDay? (characters : List Char) : Option (Except Calendar.Fault Datum) := do
  let (year, afterYear) ← takeNumber? 4 4 characters
  let (month, afterMonth) ← takeNumber? 2 2 (← skipMark? '-' afterYear)
  let (day, rest) ← takeNumber? 2 2 (← skipMark? '-' afterMonth)
  if rest.isEmpty then return (Day.make year month day).map Datum.day else none

def readMoment? (characters : List Char) : Option (Except Calendar.Fault Datum) := do
  let (year, afterYear) ← takeNumber? 4 4 characters
  let (month, afterMonth) ← takeNumber? 1 2 (← skipMark? '-' afterYear)
  let (day, afterDay) ← takeNumber? 1 2 (← skipMark? '-' afterMonth)
  let (hour, afterHour) ← takeNumber? 1 2 (← skipTimeMark? afterDay)
  let (minute, afterMinute) ← takeNumber? 2 2 (← skipMark? ':' afterHour)
  let (second, afterSecond) ← takeNumber? 2 2 (← skipMark? ':' afterMinute)
  let (microsecond, rest) := takeFraction afterSecond
  let offset? ← momentOffset? rest
  return (Moment.make year month day hour minute second microsecond offset?).map Datum.moment

def readTime? (characters : List Char) : Option (Except Calendar.Fault Datum) :=
  (readDay? characters).or (readMoment? characters)

end Reckon.Document
