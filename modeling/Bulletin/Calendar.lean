import Bulletin.Text.Decimal

/-!
# The calendar

Days of the Gregorian calendar, which is used also for the time before it was made, and times of
day. A time is a number of seconds since the beginning of 1970:

    write? 951868800      = some "2000-03-01 00:00:00 UTC"
    write? (-1)           = some "1969-12-31 23:59:59 UTC"
    write? 253402300800   = some "+10000-01-01 00:00:00 UTC"
    write? (2 ^ 62)       = none

Years are counted through zero, so that the year before 1 is 0.
-/

namespace Bulletin.Calendar

/-- Whether a year has a day more. -/
def isLeapYear (year : Int) : Bool := year % 4 == 0 && (year % 100 != 0 || year % 400 == 0)

def monthLength (year : Int) (month : Nat) : Nat :=
  if month = 2 then (if isLeapYear year then 29 else 28)
  else if [4, 6, 9, 11].contains month then 30
  else 31

/-- A day. -/
structure Date where
  year : Int
  month : Nat
  day : Nat
  deriving DecidableEq, Repr, Inhabited

/-! ## From numbers to days

Leap days are the last of their years if years begin with March. Such years are counted here, and
days from the first of March of the year zero. -/

/-- How many days are in 400 years. -/
def daysInCycle : Int := 146097

/-- How many days are before a year that begins with March. -/
def daysBefore (year : Int) : Int := 365 * year + year / 4 - year / 100 + year / 400

/-- The year, beginning with March, that a day is in. The guess is wrong by one at most. -/
def marchYear (day : Int) : Int :=
  let guess := 400 * day / daysInCycle
  if daysBefore (guess + 1) ≤ day then guess + 1
  else if daysBefore guess ≤ day then guess
  else guess - 1

/-- How many days are before a month, of which March has the number zero. -/
def daysBeforeMonth (month : Nat) : Nat := (153 * month + 2) / 5

/-- What number the first day of 1970 has. -/
def epoch : Int := 719468

/-- The day that is some days after the first of 1970. -/
def Date.ofDays (days : Int) : Date :=
  let day := days + epoch
  let year := marchYear day
  let dayOfYear := (day - daysBefore year).toNat
  let month := (5 * dayOfYear + 2) / 153
  let dayOfMonth := dayOfYear - daysBeforeMonth month + 1
  if month < 10 then ⟨year, month + 3, dayOfMonth⟩ else ⟨year + 1, month - 9, dayOfMonth⟩

/-! ## Writing -/

def secondsInDay : Int := 86400

/-- The years for which times are written as dates. -/
def isWritten (year : Int) : Bool := -262143 ≤ year && year ≤ 262142

/-- A number with at least so many digits. -/
def padded (width n : Nat) : List Char := (Decimal.digits n).leftpad width '0'

/-- A year. Those with other than four digits have a sign. -/
def writeYear (year : Int) : List Char :=
  let digits := padded 4 year.natAbs
  if year < 0 then '-' :: digits
  else if 9999 < year then '+' :: digits
  else digits

/-- A time as a date and a time of day, if its year is written. -/
def write? (seconds : Int) : Option String :=
  let date := Date.ofDays (seconds / secondsInDay)
  let second := (seconds % secondsInDay).toNat
  if isWritten date.year then
    some <| String.ofList <|
      writeYear date.year ++ '-' :: padded 2 date.month ++ '-' :: padded 2 date.day ++
      ' ' :: padded 2 (second / 3600) ++ ':' :: padded 2 (second / 60 % 60) ++
      ':' :: padded 2 (second % 60) ++ [' ', 'U', 'T', 'C']
  else none

end Bulletin.Calendar
