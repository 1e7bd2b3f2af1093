import Reckon.Double.Text

/-!
# Calendar

Days, and moments of a day with or without the offset of their clock from universal time. Both are
checked when they are made, the offset first and then the parts from the year downwards. A moment
has a text and a literal; two moments whose offsets are known are the same when they are the same
instant.
-/

set_option autoImplicit false

namespace Reckon

structure Day where
  year : Nat
  month : Nat
  day : Nat
deriving DecidableEq

structure Moment where
  day : Day
  hour : Nat
  minute : Nat
  second : Nat
  microsecond : Nat
  /-- The minutes that the clock is ahead of universal time, when that is known. -/
  offset? : Option Int
deriving DecidableEq

namespace Calendar

inductive Fault where
  | offset (minutes : Int)
  | year (number : Nat)
  | month
  | day
  | hour
  | minute
  | second
deriving DecidableEq

def minutesPerDay : Nat := 1440

/-! ## Texts -/

/-- A number with leading zeros up to a width. -/
def padded (width value : Nat) : String :=
  let digits := Double.decimalDigits value
  String.ofList (List.replicate (width - digits.length) '0' ++ digits)

/-- A part of a literal with its name, unless it is zero. -/
def namedPart (name : String) (value : Int) : List String :=
  if value = 0 then [] else [name ++ "=" ++ toString value]

/-- The literal of a duration: whole days, and the seconds of a part of a day. -/
def durationLiteral (minutes : Int) : String :=
  let parts := namedPart "days" (minutes.fdiv minutesPerDay)
    ++ namedPart "seconds" (minutes.fmod minutesPerDay * 60)
  "datetime.timedelta(" ++ (if parts.isEmpty then "0" else ", ".intercalate parts) ++ ")"

def Fault.message : Fault → String
  | .offset minutes =>
    "offset must be a timedelta strictly between -timedelta(hours=24) and timedelta(hours=24), not "
      ++ durationLiteral minutes ++ "."
  | .year number => "year " ++ toString number ++ " is out of range"
  | .month => "month must be in 1..12"
  | .day => "day is out of range for month"
  | .hour => "hour must be in 0..23"
  | .minute => "minute must be in 0..59"
  | .second => "second must be in 0..59"

end Calendar

namespace Day

open Calendar

def text (day : Day) : String :=
  padded 4 day.year ++ "-" ++ padded 2 day.month ++ "-" ++ padded 2 day.day

def parts (day : Day) : List String :=
  [toString day.year, toString day.month, toString day.day]

def literal (day : Day) : String :=
  "datetime.date(" ++ ", ".intercalate day.parts ++ ")"

def isLeap (year : Nat) : Bool :=
  year % 4 == 0 && (year % 100 != 0 || year % 400 == 0)

def daysOfMonth (year month : Nat) : Nat :=
  if month == 2 then if isLeap year then 29 else 28
  else if month == 4 || month == 6 || month == 9 || month == 11 then 30
  else 31

def make (year month day : Nat) : Except Calendar.Fault Day :=
  if year = 0 ∨ 9999 < year then .error (.year year)
  else if month = 0 ∨ 12 < month then .error .month
  else if day = 0 ∨ daysOfMonth year month < day then .error .day
  else .ok ⟨year, month, day⟩

/-- How many days there are up to a day, that day included, from the start of the first year. -/
def number (day : Day) : Nat :=
  let years := day.year - 1
  let months := (List.range' 1 (day.month - 1)).map (daysOfMonth day.year)
  years * 365 + years / 4 - years / 100 + years / 400 + months.foldl (· + ·) 0 + day.day

end Day

namespace Moment

open Calendar

def make (year month day hour minute second microsecond : Nat) (offset? : Option Int) :
    Except Calendar.Fault Moment := do
  if let some minutes := offset? then
    if minutesPerDay ≤ minutes.natAbs then throw (.offset minutes)
  let day ← Day.make year month day
  if 23 < hour then throw .hour
  if 59 < minute then throw .minute
  if 59 < second then throw .second
  return ⟨day, hour, minute, second, microsecond, offset?⟩

def offsetText (minutes : Int) : String :=
  (if minutes < 0 then "-" else "+") ++ padded 2 (minutes.natAbs / 60) ++ ":"
    ++ padded 2 (minutes.natAbs % 60)

/-- A moment as a day and a time, with what it has of a fraction and an offset. -/
def text (moment : Moment) : String :=
  moment.day.text ++ " " ++ padded 2 moment.hour ++ ":" ++ padded 2 moment.minute ++ ":"
    ++ padded 2 moment.second
    ++ (if moment.microsecond = 0 then "" else "." ++ padded 6 moment.microsecond)
    ++ (moment.offset?.map offsetText).getD ""

def clockLiteral (minutes : Int) : String :=
  if minutes = 0 then "datetime.timezone.utc"
  else "datetime.timezone(" ++ durationLiteral minutes ++ ")"

/-- The seconds of a moment in a literal: none when there are no parts of a minute. -/
def secondParts (moment : Moment) : List String :=
  if moment.microsecond ≠ 0 then [toString moment.second, toString moment.microsecond]
  else if moment.second ≠ 0 then [toString moment.second]
  else []

def literal (moment : Moment) : String :=
  let clock := (moment.offset?.map fun minutes => "tzinfo=" ++ clockLiteral minutes).toList
  let parts := moment.day.parts ++ [toString moment.hour, toString moment.minute]
    ++ moment.secondParts ++ clock
  "datetime.datetime(" ++ ", ".intercalate parts ++ ")"

/-- The seconds of a moment on a clock that is some minutes ahead, with its parts of a second. -/
def instant (moment : Moment) (ahead : Int) : Int × Nat :=
  let minutes : Int := (moment.day.number * 24 + moment.hour) * 60 + moment.minute
  ((minutes - ahead) * 60 + moment.second, moment.microsecond)

def same (left right : Moment) : Bool :=
  match left.offset?, right.offset? with
  | some leftAhead, some rightAhead => left.instant leftAhead == right.instant rightAhead
  | none, none => left == right
  | _, _ => false

end Moment

end Reckon
