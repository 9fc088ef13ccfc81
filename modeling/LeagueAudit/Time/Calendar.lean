/-!
The Gregorian calendar, extended to all years: days are counted from 1970-01-01.
-/
namespace LeagueAudit

/-- A date by year, month and day. -/
structure Date where
  year : Int
  month : Nat
  day : Nat
  deriving DecidableEq, Repr

def isLeapYear (year : Int) : Bool :=
  year % 4 == 0 && (year % 100 != 0 || year % 400 == 0)

def daysInMonth (year : Int) (month : Nat) : Nat :=
  if month = 2 then (if isLeapYear year then 29 else 28)
  else if month = 4 || month = 6 || month = 9 || month = 11 then 30
  else 31

namespace Date

/-- A date of the calendar in the years that have four digits. -/
def valid (d : Date) : Bool :=
  1 ≤ d.year && d.year ≤ 9999 && 1 ≤ d.month && d.month ≤ 12 &&
    1 ≤ d.day && d.day ≤ daysInMonth d.year d.month

/-- The day number of a date. Years are counted from March, so that a leap day ends its year. -/
def toDays (d : Date) : Int :=
  let year := if d.month ≤ 2 then d.year - 1 else d.year
  let month := (d.month + 9) % 12
  let dayOfYear : Int := (153 * month + 2) / 5 + d.day - 1
  year * 365 + year.fdiv 4 - year.fdiv 100 + year.fdiv 400 + dayOfYear - 719468

/-- The date of a day number, by cycles of 400 years. -/
def ofDays (days : Int) : Date :=
  let shifted := days + 719468
  let era := shifted.fdiv 146097
  let dayOfEra := (shifted - era * 146097).toNat
  let yearOfEra := (dayOfEra - dayOfEra / 1460 + dayOfEra / 36524 - dayOfEra / 146096) / 365
  let dayOfYear := dayOfEra - (365 * yearOfEra + yearOfEra / 4 - yearOfEra / 100)
  let month := (5 * dayOfYear + 2) / 153
  let day := dayOfYear - (153 * month + 2) / 5 + 1
  let civilMonth := if month < 10 then month + 3 else month - 9
  let year := era * 400 + yearOfEra
  ⟨if civilMonth ≤ 2 then year + 1 else year, civilMonth, day⟩

end Date

/-- The first and the last day of the years that have four digits. -/
def firstDay : Int := Date.toDays ⟨1, 1, 1⟩
def lastDay : Int := Date.toDays ⟨9999, 12, 31⟩

/-- The day of the week, from Monday as zero. -/
def weekdayOfDays (days : Int) : Nat := ((days + 3) % 7).toNat

def weekdayNames : List String :=
  ["Monday", "Tuesday", "Wednesday", "Thursday", "Friday", "Saturday", "Sunday"]

/-- The name of a day of the week. -/
def weekdayName (days : Int) : String := weekdayNames.getD (weekdayOfDays days) ""

/-- The day number of the Monday of the first week of a year, the week with its first Thursday. -/
def firstWeekMonday (year : Int) : Int :=
  let newYear := Date.toDays ⟨year, 1, 1⟩
  let weekday := weekdayOfDays newYear
  let monday := newYear - weekday
  if weekday > 3 then monday + 7 else monday

/-- A year has a week 53 when it starts on a Thursday, or on a Wednesday in a leap year. -/
def hasWeek53 (year : Int) : Bool :=
  let weekday := weekdayOfDays (Date.toDays ⟨year, 1, 1⟩)
  weekday == 3 || (weekday == 2 && isLeapYear year)

/-- The date of a day of a week of a year. -/
def dateOfWeek? (year : Int) (week day : Nat) : Option Date :=
  if year < 1 || week = 0 || week > 53 || (week = 53 && !hasWeek53 year) || day = 0 || day > 7 then
    none
  else some (Date.ofDays (firstWeekMonday year + (week - 1) * 7 + (day - 1)))

end LeagueAudit
