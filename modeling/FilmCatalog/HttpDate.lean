/-
  FilmCatalog.HttpDate
  ────────────────────
  **DATES IN HTTP HEADERS.**

  Two layouts are read:

      Sun, 06 Nov 1994 08:49:37 GMT
      Sunday, 06-Nov-94 08:49:37 GMT

  Names count in any case, blanks may be missing or repeated, and the
  weekday has to be the one of the date.  A leap second belongs to the second
  before it.
-/
import FilmCatalog.Calendar
import FilmCatalog.Text.Blank
import FilmCatalog.Text.Parts

namespace FilmCatalog

/-- A point in time: seconds since 1970 and nanoseconds; in a leap second
there are more than a thousand million of them. -/
structure Instant where
  second : Int
  nanosecond : Nat
  deriving DecidableEq, Repr

namespace Instant

/-- Whether one point in time is not after another. -/
def notAfter (a b : Instant) : Bool :=
  a.second < b.second || (a.second = b.second && a.nanosecond ≤ b.nanosecond)

/-- The latest of some points in time. -/
def latest? : List Instant → Option Instant
  | [] => none
  | instant :: rest => some (rest.foldl (fun a b => if a.notAfter b then b else a) instant)

end Instant

namespace HttpDate

/-! ## §1. Scanners. -/

/-- Reads a part from the front of a text. -/
abbrev Scan (α : Type) := StateT (List Char) Option α

/-- A text that has to follow. -/
def literal (text : String) : Scan Unit := fun input =>
  (Text.dropStart? text.toList input).map fun rest => ((), rest)

/-- Any white space, or none. -/
def blanks : Scan Unit := fun input => some ((), Text.trimStart input)

/-- One of some names, in any case; its position. -/
def name (names : List String) : Scan Nat := fun input =>
  let lowered := input.map Char.toLower
  let found := names.findIdx? fun name => name.toList.isPrefixOf lowered
  found.map fun index => (index, input.drop ((names[index]?.map String.length).getD 0))

/-- The names of the days. -/
def dayNames : List String := ["mon", "tue", "wed", "thu", "fri", "sat", "sun"]

/-- What follows a short name of a day in the long one. -/
def dayEndings : List String := ["day", "sday", "nesday", "rsday", "day", "urday", "day"]

/-- The names of the months. -/
def monthNames : List String :=
  ["jan", "feb", "mar", "apr", "may", "jun", "jul", "aug", "sep", "oct", "nov", "dec"]

/-- The value of decimal digits. -/
def valueOf (digits : List Char) : Nat :=
  digits.foldl (fun n c => 10 * n + (c.toNat - '0'.toNat)) 0

/-- At least one and at most `width` digits, after any white space. -/
def number (width : Nat) : Scan Nat := fun input =>
  let input := Text.trimStart input
  let digits := (input.take width).takeWhile Char.isDigit
  if digits = [] then none else some (valueOf digits, input.drop digits.length)

/-- As many digits as there are. -/
def longNumber : Scan Nat := fun input =>
  let digits := input.takeWhile Char.isDigit
  if digits = [] then none else some (valueOf digits, input.drop digits.length)

/-- A year: up to four digits, or any number of them after a sign. -/
def year : Scan Int := fun input =>
  match Text.trimStart input with
  | '-' :: rest => (longNumber rest).map fun (n, rest) => (-(n : Int), rest)
  | '+' :: rest => (longNumber rest).map fun (n, rest) => ((n : Int), rest)
  | rest => (number 4 rest).map fun (n, rest) => ((n : Int), rest)

/-- The end of the text. -/
def finish : Scan Unit := fun input => if input = [] then some ((), []) else none

/-! ## §2. Layouts. -/

/-- The time of a day. -/
structure Clock where
  hour : Nat
  minute : Nat
  second : Nat
  deriving DecidableEq, Repr

/-- A date and time as written. -/
structure Stamp where
  weekday : Nat
  day : Nat
  month : Nat
  year : Int
  clock : Clock
  deriving DecidableEq, Repr

/-- Hours, minutes and seconds, then the zone. -/
def clock : Scan Clock := do
  let hour ← number 2
  literal ":"
  let minute ← number 2
  literal ":"
  let second ← number 2
  blanks
  literal "GMT"
  return ⟨hour, minute, second⟩

/-- The layout with a short day name and a full year. -/
def shortLayout : Scan Stamp := do
  let weekday ← name dayNames
  literal ","
  blanks
  let day ← number 2
  blanks
  let month ← name monthNames
  blanks
  let year ← year
  blanks
  let clock ← clock
  return ⟨weekday, day, month + 1, year, clock⟩

/-- The rest of a long day name, if it follows. -/
def dayEnding (weekday : Nat) : Scan Unit := fun input =>
  let ending := (dayEndings[weekday]?.getD "").toList
  if ending.isPrefixOf (input.map Char.toLower) then some ((), input.drop ending.length)
  else some ((), input)

/-- The year of two digits: from 1970 to 2069. -/
def fullYear (short : Nat) : Int := if short < 70 then 2000 + short else 1900 + short

/-- The layout with a long day name and a short year. -/
def longLayout : Scan Stamp := do
  let weekday ← name dayNames
  dayEnding weekday
  literal ","
  blanks
  let day ← number 2
  literal "-"
  let month ← name monthNames
  literal "-"
  let year ← number 2
  blanks
  let clock ← clock
  return ⟨weekday, day, month + 1, fullYear year, clock⟩

/-! ## §3. Points in time. -/

/-- The point in time of a stamp that names an existing date and time. -/
def Stamp.instant? (s : Stamp) : Option Instant :=
  let day := Calendar.dayNumber s.year s.month s.day
  if Calendar.isDate s.year s.month s.day && Calendar.weekday day == s.weekday
      && s.clock.hour < 24 && s.clock.minute < 60 && s.clock.second ≤ 60 then
    let leap := s.clock.second = 60
    let second := if leap then 59 else s.clock.second
    some
      ⟨day * Calendar.secondsPerDay + ((s.clock.hour * 60 + s.clock.minute) * 60 + second : Nat),
        if leap then 1000000000 else 0⟩
  else none

/-- Reads a whole text by a layout. -/
def readBy (layout : Scan Stamp) (text : List Char) : Option Instant :=
  match (do let stamp ← layout; finish; return stamp : Scan Stamp).run text with
  | some (stamp, _) => stamp.instant?
  | none => none

/-- Reads a header. -/
def parse? (header : String) : Option Instant :=
  let text := (Text.trim header).toList
  (readBy shortLayout text).or (readBy longLayout text)

end HttpDate

end FilmCatalog
