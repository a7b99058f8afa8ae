import BusinessAtlas.Text.Search

/-!
# Dates and moments

The days of the calendar, and the moment at which something is written, in the forms that files
show. All moments are in universal time.
-/

namespace BusinessAtlas

/-- Why a year, a month and a day are no date. -/
inductive DateFault where
  | year (year : Nat)
  | month
  | day
  deriving DecidableEq

def DateFault.message : DateFault → String
  | year n => "year " ++ toString n ++ " is out of range"
  | month => "month must be in 1..12"
  | day => "day is out of range for month"

def isLeapYear (year : Nat) : Bool := year % 4 == 0 && (year % 100 != 0 || year % 400 == 0)

def daysOfMonth (year month : Nat) : Nat :=
  if month == 2 then (if isLeapYear year then 29 else 28)
  else if [4, 6, 9, 11].contains month then 30
  else 31

/-- Why a year, a month and a day are no date, if they are none. -/
def DateFault.of? (year month day : Nat) : Option DateFault :=
  if year == 0 then some (.year year)
  else if month == 0 || 12 < month then some .month
  else if day == 0 || daysOfMonth year month < day then some .day
  else none

/-- A moment of the calendar. -/
structure Moment where
  year : Nat
  month : Nat
  day : Nat
  hour : Nat
  minute : Nat
  second : Nat
  microsecond : Nat
  deriving DecidableEq

namespace Moment

/-- The calendar day that lies a number of days after the first of January 1970. Years are counted
from the first of March, so that a leap day is the last day of its year, and in spans of 400 years,
which all have the same number of days. -/
def dateOfDays (days : Nat) : Nat × Nat × Nat :=
  let shifted := days + 719468
  let ofSpan := shifted % 146097
  let yearOfSpan := (ofSpan - ofSpan / 1460 + ofSpan / 36524 - ofSpan / 146096) / 365
  let ofYear := ofSpan - (365 * yearOfSpan + yearOfSpan / 4 - yearOfSpan / 100)
  let month := (5 * ofYear + 2) / 153
  let day := ofYear - (153 * month + 2) / 5 + 1
  let year := shifted / 146097 * 400 + yearOfSpan
  if month < 10 then (year, month + 3, day) else (year + 1, month - 9, day)

/-- The moment that lies a number of seconds, and a fraction in microseconds, after the start of
1970. -/
def ofSeconds (seconds fraction : Nat) : Moment :=
  let (year, month, day) := dateOfDays (seconds / 86400)
  ⟨year, month, day, seconds / 3600 % 24, seconds / 60 % 60, seconds % 60, fraction⟩

example : (ofSeconds 1704164645 0) = ⟨2024, 1, 2, 3, 4, 5, 0⟩ := by decide

private def digits (width n : Nat) : String := Text.padLeft width '0' (toString n)

def date (m : Moment) : String :=
  digits 4 m.year ++ "-" ++ digits 2 m.month ++ "-" ++ digits 2 m.day

def time (m : Moment) : String :=
  digits 2 m.hour ++ ":" ++ digits 2 m.minute ++ ":" ++ digits 2 m.second

/-- Date and time in one word; a fraction of a second is shown if there is one. -/
def iso (m : Moment) : String :=
  m.date ++ "T" ++ m.time
    ++ if m.microsecond == 0 then "" else "." ++ digits 6 m.microsecond

/-- Date and time in one word, with the offset to universal time. -/
def isoWithOffset (m : Moment) : String := m.iso ++ "+00:00"

def spaced (m : Moment) : String := m.date ++ " " ++ m.time

end Moment

end BusinessAtlas
