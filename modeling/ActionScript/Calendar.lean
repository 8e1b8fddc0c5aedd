import ActionScript.Number.Integer

/-! # Points in time

A time is a number of milliseconds from the start of 1970 in the Gregorian calendar, extended to
all years. The time zone is the universal one. What dates compute of their components and show as
their text is said for any calendar (`Almanac`); the one that runs is `gregorian`. -/

namespace ActionScript.Calendar

/-- Days have no leap seconds. -/
def millisecondsPerDay : Int := 86400000

/-- The days from 1970-01-01 to a date; months count from 1. The year is taken to start in March,
so that the day added in leap years is its last, and 400 such years are a whole cycle. -/
def days (year month day : Int) : Int :=
  let y := if month ≤ 2 then year - 1 else year
  let yearOfCycle := y % 400
  let dayOfYear := (153 * ((month + 9) % 12) + 2) / 5 + day - 1
  let dayOfCycle := yearOfCycle * 365 + yearOfCycle / 4 - yearOfCycle / 100 + dayOfYear
  y / 400 * 146097 + dayOfCycle - 719468

/-- A date of the calendar; months and days count from 1. -/
structure Date where
  year : Int
  month : Int
  day : Int
deriving DecidableEq

/-- The date that is a number of days from 1970-01-01. -/
def date (days : Int) : Date :=
  let z := days + 719468
  let dayOfCycle := z % 146097
  let yearOfCycle :=
    (dayOfCycle - dayOfCycle / 1460 + dayOfCycle / 36524 - dayOfCycle / 146096) / 365
  let dayOfYear := dayOfCycle - (365 * yearOfCycle + yearOfCycle / 4 - yearOfCycle / 100)
  let shifted := (5 * dayOfYear + 2) / 153
  let month := if shifted < 10 then shifted + 3 else shifted - 9
  let year := z / 146097 * 400 + yearOfCycle
  { year := if month ≤ 2 then year + 1 else year
    month
    day := dayOfYear - (153 * shifted + 2) / 5 + 1 }

/-- Dates outside these years have no calendar form. -/
def minYear : Int := -262143

/-- Dates outside these years have no calendar form. -/
def maxYear : Int := 262142

/-- Whether the day of a time, in milliseconds, has a calendar form. -/
def inRange (time : Int) : Bool :=
  days minYear 1 1 * millisecondsPerDay ≤ time &&
    time < (days maxYear 12 31 + 1) * millisecondsPerDay

/-- A time that a date may hold: an integer at most `8.64e15` milliseconds either way. -/
def clip (time : Number) : Number :=
  if !time.isFinite || Number.lt (.ofNat 8640000000000000) time.abs then .nan else time.trunc + 0

/-- The value of a component, or what it is if missing. -/
def component (parts : List Number) (i : Nat) (default : Number) : Number :=
  (parts[i]?.map Number.trunc).getD default

/-- Years from 0 to 99 lie in the twentieth century. -/
def fullYear (year : Number) : Number :=
  if Number.le 0 year && Number.lt year 100 then year + 1900 else year

/-! ## Text -/

/-- The short names of the days of the week, from Sunday on. -/
def weekdays : List String := ["Sun", "Mon", "Tue", "Wed", "Thu", "Fri", "Sat"]

/-- The short names of the months. -/
def months : List String :=
  ["Jan", "Feb", "Mar", "Apr", "May", "Jun", "Jul", "Aug", "Sep", "Oct", "Nov", "Dec"]

/-- A numeral with zeros in front up to a width. -/
def padded (width n : Nat) : String :=
  let digits := Nat.repr n
  String.ofList (List.replicate (width - digits.length) '0') ++ digits

/-- A year has at least four digits, and a sign if it is negative or has more. -/
def yearText (year : Int) : String :=
  if 0 ≤ year ∧ year ≤ 9999 then padded 4 year.natAbs
  else (if year < 0 then "-" else "+") ++ padded 4 year.natAbs

/-- The text of a time in milliseconds within the range of the calendar. -/
def timeText (time : Int) : String :=
  let day := time / millisecondsPerDay
  let d := date day
  let second := (time % millisecondsPerDay / 1000).toNat
  weekdays.getD ((day + 4) % 7).toNat "" ++ " " ++ months.getD (d.month - 1).toNat "" ++ " " ++
    Nat.repr d.day.toNat ++ " " ++ padded 2 (second / 3600) ++ ":" ++
    padded 2 (second / 60 % 60) ++ ":" ++ padded 2 (second % 60) ++ " GMT+0000 " ++
    yearText d.year

/-! ## Calendars -/

/-- What dates need of a calendar, which may not reach to all times. -/
structure Almanac where
  /-- The time at which a month starts. Months count from 1. -/
  monthStart? (year month : Int) : Option Int
  /-- The time that is a number of milliseconds after another. -/
  later? (time offset : Int) : Option Int
  /-- How a time is shown. -/
  text? (time : Int) : Option String

namespace Almanac

/-- The time of components of a date: year, month from 0, day, hour, minute, second, millisecond.
All of them may exceed their ranges and carry into the larger ones. -/
def ofComponents (c : Almanac) (parts : List Number) : Number :=
  let field := component parts
  let months := fullYear (field 0 .nan) * 12 + field 1 0
  let offset := (((field 2 1 - 1) * 24 + field 3 0) * 60 + field 4 0) * 60000 +
    field 5 0 * 1000 + field 6 0
  let year := months.toInt / 12
  if parts.all Number.isFinite && months.isFinite && year.natAbs ≤ 300000 then
    match (c.monthStart? year (months.toInt % 12 + 1)).bind (c.later? · offset.toInt64) with
    | some time => clip (.ofInt time)
    | none => .nan
  else .nan

/-- The text of the time of a date. -/
def text (c : Almanac) (time : Number) : String :=
  if time.isNaN then "Invalid Date" else (c.text? time.toInt64).getD "Invalid Date"

end Almanac

/-- The Gregorian calendar over the years that have a calendar form. -/
def gregorian : Almanac where
  monthStart? year month :=
    if minYear ≤ year ∧ year ≤ maxYear then some (days year month 1 * millisecondsPerDay) else none
  later? time offset := if inRange (time + offset) then some (time + offset) else none
  text? time := if inRange time then some (timeText time) else none

/-- The time of components of a date by the calendar that runs. -/
def ofComponents (parts : List Number) : Number := gregorian.ofComponents parts

/-- The text of the time of a date by the calendar that runs. -/
def text (time : Number) : String := gregorian.text time

end ActionScript.Calendar
