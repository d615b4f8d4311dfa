import DoubleSubmit.Text.Decimal

/-! The Gregorian calendar, extended to all years, and dates as HTTP writes them. Days are counted
from the first of January of the year 1, which is a Monday. -/

namespace DoubleSubmit.Calendar

/-- A day of the calendar; months and days count from one. -/
structure Date where
  year : Int
  month : Nat
  day : Nat
  deriving DecidableEq, Repr

/-- Every fourth year is a leap year, of the centuries every fourth. -/
def isLeap (year : Int) : Bool := year % 4 == 0 && (year % 100 != 0 || year % 400 == 0)

def monthLengths (year : Int) : List Nat :=
  [31, if isLeap year then 29 else 28, 31, 30, 31, 30, 31, 31, 30, 31, 30, 31]

/-- The number of the first day of a year. -/
def yearStart (year : Int) : Int :=
  365 * (year - 1) + (year - 1) / 4 - (year - 1) / 100 + (year - 1) / 400

/-- The days of so many months, the first of which have these lengths. -/
def daysOfMonths : List Nat → Nat → Nat
  | length :: lengths, months + 1 => length + daysOfMonths lengths months
  | _, _ => 0

/-- The month and day of the day with this number in a year whose months have these lengths. -/
def monthAndDay : List Nat → Nat → Nat × Nat
  | [], n => (1, n + 1)
  | length :: lengths, n =>
    if n < length then (1, n + 1)
    else
      let (month, day) := monthAndDay lengths (n - length)
      (month + 1, day)

/-- The year of the day with this number: full cycles of 400 years, then centuries, then cycles of
four years, then years, where the last century and the last year of a cycle may be a day longer. -/
def yearOfDay (n : Int) : Int :=
  let inEra := n % 146097
  let century := min (inEra / 36524) 3
  let inCentury := inEra - 36524 * century
  let inCycle := inCentury % 1461
  400 * (n / 146097) + 100 * century + 4 * (inCentury / 1461) + min (inCycle / 365) 3 + 1

/-- The date of the day with this number. -/
def Date.ofDay (n : Int) : Date :=
  let year := yearOfDay n
  let (month, day) := monthAndDay (monthLengths year) (n - yearStart year).toNat
  ⟨year, month, day⟩

/-- The names of the days of the week, from Monday on. -/
def weekdayNames : List String := ["Mon", "Tue", "Wed", "Thu", "Fri", "Sat", "Sun"]

def monthNames : List String :=
  ["Jan", "Feb", "Mar", "Apr", "May", "Jun", "Jul", "Aug", "Sep", "Oct", "Nov", "Dec"]

/-- The day of the week of the day with this number, in short. -/
def weekday (n : Int) : String := weekdayNames.getD (n % 7).toNat ""

/-- The number of the first of January 1970. -/
def unixEpoch : Int := 719162

def daySeconds : Int := 86400

/-- The first second of the year -9999, counted from 1970. -/
def minUnix : Int := -377705116800

/-- The last second of the year 9999, counted from 1970. -/
def maxUnix : Int := 253402300799

/-- The farthest that a zone may lie from Greenwich, in seconds. -/
def maxOffset : Int := 93599

/-- A second of the years -9999 to 9999, counted from 1970 in Greenwich. -/
structure Instant where
  unix : Int
  inRange : minUnix ≤ unix ∧ unix ≤ maxUnix
  deriving DecidableEq

namespace Instant

/-- The instant of this count of seconds, written in a zone with this offset. The zone leaves no
trace, but the date there must lie in the same years. -/
def ofUnix? (unix offset : Int) : Option Instant :=
  if h : minUnix ≤ unix ∧ unix ≤ maxUnix then
    if offset.natAbs ≤ maxOffset ∧ minUnix ≤ unix + offset ∧ unix + offset ≤ maxUnix then
      some ⟨unix, h⟩
    else none
  else none

def day (instant : Instant) : Int := instant.unix / daySeconds + unixEpoch

def secondOfDay (instant : Instant) : Nat := (instant.unix % daySeconds).toNat

/-- The time of day, in hours, minutes and seconds. -/
def timeText (instant : Instant) : String :=
  let s := instant.secondOfDay
  Text.twoDigits (s / 3600) ++ ":" ++ Text.twoDigits (s / 60 % 60) ++ ":" ++ Text.twoDigits (s % 60)

/-- The instant as HTTP writes it: the day of the month has two digits, the year as few as it
needs. -/
def httpText (instant : Instant) : String :=
  let date := Date.ofDay instant.day
  weekday instant.day ++ ", " ++ Text.twoDigits date.day ++ " " ++
    monthNames.getD (date.month - 1) "" ++ " " ++ Text.signed date.year ++ " " ++
    instant.timeText ++ " GMT"

end Instant

end DoubleSubmit.Calendar
