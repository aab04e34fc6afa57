/-!
# Moments

A moment is a date of the Gregorian calendar and a time of the day, both in universal time.

- `Moment`: the parts of a moment.
- `Moment.ordinal`: the number of the day, counted from the first day of the first year.
- `Moment.weekday`, `Moment.dayOfYear`, `Moment.isoWeek`: the parts that follow from the date.
-/

namespace Blueprint

/-- A moment in universal time. Months and days count from one. -/
structure Moment where
  year : Nat := 1970
  month : Nat := 1
  day : Nat := 1
  hour : Nat := 0
  minute : Nat := 0
  second : Nat := 0
  microsecond : Nat := 0
deriving DecidableEq

namespace Moment

/-- Whether a year has a leap day. -/
def isLeapYear (year : Nat) : Bool := year % 4 = 0 && (year % 100 ≠ 0 || year % 400 = 0)

/-- The lengths of the months of a year. -/
def monthLengths (year : Nat) : List Nat :=
  [31, if isLeapYear year then 29 else 28, 31, 30, 31, 30, 31, 31, 30, 31, 30, 31]

/-- The number of the day in its year, counted from one. -/
def dayOfYear (m : Moment) : Nat := ((monthLengths m.year).take (m.month - 1)).foldl (· + ·) m.day

/-- The number of days in the years before a year. -/
def daysBeforeYear (year : Nat) : Nat :=
  let y := year - 1
  365 * y + y / 4 - y / 100 + y / 400

/-- The number of the day, counted from one on the first day of the first year. -/
def ordinal (m : Moment) : Nat := daysBeforeYear m.year + m.dayOfYear

/-- The day of the week; Monday is zero. -/
def weekday (m : Moment) : Nat := (m.ordinal + 6) % 7

/-- The number of the second, counted from zero at the start of 1970. -/
def unixSeconds (m : Moment) : Int :=
  ((m.ordinal : Int) - daysBeforeYear 1970 - 1) * 86400 + m.hour * 3600 + m.minute * 60 + m.second

/-- The number of whole seconds between the start of 1970 and a moment, with a minus sign for the
moments before it. -/
def wholeUnixSeconds (m : Moment) : Int :=
  -- towards zero, where `unixSeconds` is rounded down
  if m.unixSeconds < 0 ∧ 0 < m.microsecond then m.unixSeconds + 1 else m.unixSeconds

/-- The hour on a clock face. -/
def clockHour (m : Moment) : Nat := (m.hour + 11) % 12 + 1

/-- The number of the week in its year, when weeks start on the given day; the days before the first
such day are in week zero. -/
def weekFrom (m : Moment) (start : Nat) : Nat :=
  (m.dayOfYear + 6 - (m.weekday + 7 - start) % 7) / 7

/-- The number of weeks in a year, when a week belongs to the year of its Thursday. -/
def isoWeeks (year : Nat) : Nat :=
  let first : Moment := { year }
  -- the year has 53 Thursdays
  if first.weekday = 3 ∨ (first.weekday = 2 ∧ isLeapYear year) then 53 else 52

/-- The year and the number of the week, when a week belongs to the year of its Thursday. -/
def isoWeek (m : Moment) : Nat × Nat :=
  -- the first days may belong to the year before, and the last ones to the year after
  let week := (m.dayOfYear + 9 - m.weekday) / 7
  if week = 0 then (m.year - 1, isoWeeks (m.year - 1))
  else if isoWeeks m.year < week then (m.year + 1, 1)
  else (m.year, week)

/-- The names of the days of the week. -/
def weekdayNames : List String :=
  ["Monday", "Tuesday", "Wednesday", "Thursday", "Friday", "Saturday", "Sunday"]

/-- The names of the months. -/
def monthNames : List String :=
  ["January", "February", "March", "April", "May", "June", "July", "August", "September", "October",
    "November", "December"]

/-- The name of the day of the week. -/
def weekdayName (m : Moment) : String := weekdayNames.getD m.weekday ""

/-- The name of the month. -/
def monthName (m : Moment) : String := monthNames.getD (m.month - 1) ""

end Moment

end Blueprint
