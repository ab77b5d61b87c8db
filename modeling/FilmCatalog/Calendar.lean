/-
  FilmCatalog.Calendar
  ────────────────────
  **DAYS AND SECONDS OF THE PROLEPTIC GREGORIAN CALENDAR.**

  Days are counted from 1 January 1970.  Years run from `firstYear` to
  `lastYear`; a time outside of them is no time of this calendar.
-/

namespace FilmCatalog.Calendar

/-- The first year of the calendar. -/
def firstYear : Int := -262143

/-- The last year of the calendar. -/
def lastYear : Int := 262142

/-- Whether a year has 366 days. -/
def isLeapYear (year : Int) : Bool :=
  year % 4 == 0 && (year % 100 != 0 || year % 400 == 0)

/-- The number of days of a month. -/
def daysInMonth (year : Int) (month : Nat) : Nat :=
  if month = 2 then (if isLeapYear year then 29 else 28)
  else if month = 4 ∨ month = 6 ∨ month = 9 ∨ month = 11 then 30
  else 31

/-- The days before a year, counted from 1 January of the year 0. -/
def daysBeforeYear (year : Int) : Int :=
  let last := year - 1
  365 * year + (last.fdiv 4 - last.fdiv 100 + last.fdiv 400 + 1)

/-- The days before a month in its year. -/
def daysBeforeMonth (year : Int) (month : Nat) : Nat :=
  (List.range (month - 1)).foldl (fun days m => days + daysInMonth year (m + 1)) 0

/-- Whether a date exists. -/
def isDate (year : Int) (month day : Nat) : Bool :=
  firstYear ≤ year && year ≤ lastYear && 1 ≤ month && month ≤ 12
    && 1 ≤ day && day ≤ daysInMonth year month

/-- The number of a day. -/
def dayNumber (year : Int) (month day : Nat) : Int :=
  daysBeforeYear year + daysBeforeMonth year month + (day - 1 : Nat) - daysBeforeYear 1970

/-- The weekday of a day; 0 is Monday. -/
def weekday (dayNumber : Int) : Nat := ((dayNumber + 3) % 7).toNat

/-- The seconds of a day. -/
def secondsPerDay : Int := 86400

/-- The first second of the calendar. -/
def firstSecond : Int := dayNumber firstYear 1 1 * secondsPerDay

/-- The last second of the calendar. -/
def lastSecond : Int := dayNumber (lastYear + 1) 1 1 * secondsPerDay - 1

/-- Whether a second lies in the calendar. -/
def hasSecond (second : Int) : Bool := firstSecond ≤ second && second ≤ lastSecond

end FilmCatalog.Calendar
