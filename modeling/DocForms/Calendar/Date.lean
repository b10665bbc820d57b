import DocForms.Natural

/-! Days of the proleptic Gregorian calendar from year 1 to year 9999, their ordinal numbers and
the ISO weeks that also name them. -/
namespace DocForms

namespace Calendar

/-- Every fourth year is longer, except the centuries that 400 does not divide. -/
def isLeap (year : Nat) : Bool := year % 4 == 0 && (year % 100 != 0 || year % 400 == 0)

/-- The number of days of a month; zero for a number that is no month. -/
def daysInMonth (year month : Nat) : Nat :=
  match month with
  | 1 => 31
  | 2 => if isLeap year then 29 else 28
  | 3 => 31
  | 4 => 30
  | 5 => 31
  | 6 => 30
  | 7 => 31
  | 8 => 31
  | 9 => 30
  | 10 => 31
  | 11 => 30
  | 12 => 31
  | _ => 0

/-- Whether three numbers name a day of the calendar. -/
def isDay (year month day : Nat) : Bool :=
  decide (1 ≤ year) && decide (year ≤ 9999) && decide (1 ≤ day) &&
    decide (day ≤ daysInMonth year month)

/-- The number of days before the first of January. -/
def daysBeforeYear (year : Nat) : Nat :=
  let y := year - 1
  y * 365 + y / 4 - y / 100 + y / 400

/-- The number of days of the year before a month begins. -/
def daysBeforeMonth (year month : Nat) : Nat :=
  ((List.range (month - 1)).map fun m => daysInMonth year (m + 1)).sum

/-- The number of a day, counted from 1 on the first of January of year 1. -/
def ordinal (year month day : Nat) : Nat :=
  daysBeforeYear year + daysBeforeMonth year month + day

/-- The weekday of an ordinal number, zero for Monday. -/
def weekday (ordinal : Nat) : Nat := (ordinal + 6) % 7

/-- The month and day of the `n`-th day of a year, counted from zero, starting the search at
`month`. -/
def monthDay (year : Nat) : (fuel : Nat) → (month n : Nat) → Nat × Nat
  | 0, month, n => (month, n + 1)
  | fuel + 1, month, n =>
    let len := daysInMonth year month
    if n < len then (month, n + 1) else monthDay year fuel (month + 1) (n - len)

/-- Year, month and day of an ordinal number of at least 1. -/
def ofOrdinal (ordinal : Nat) : Nat × Nat × Nat :=
  let n := ordinal - 1
  let n400 := n / 146097
  let n := n % 146097
  let n100 := min (n / 36524) 3
  let n := n - n100 * 36524
  let n4 := n / 1461
  let n := n % 1461
  let n1 := min (n / 365) 3
  let n := n - n1 * 365
  let year := n400 * 400 + n100 * 100 + n4 * 4 + n1 + 1
  (year, monthDay year 12 1 n)

/-- The ordinal number of the Monday of the first ISO week of a year: the week with the year's
first Thursday. -/
def firstMonday (year : Nat) : Nat :=
  let first := ordinal year 1 1
  let w := weekday first
  if 3 < w then first + 7 - w else first - w

/-- The number of ISO weeks of a year: 53 if it starts on a Thursday, or is a leap year and starts
on a Wednesday. -/
def isoWeeks (year : Nat) : Nat :=
  let w := weekday (ordinal year 1 1)
  if w == 3 || (w == 2 && isLeap year) then 53 else 52

end Calendar

/-- A day of the calendar. -/
structure Date where
  year : Nat
  month : Nat
  day : Nat
  isDay : Calendar.isDay year month day = true
deriving DecidableEq

namespace Date

/-- The day with the given numbers, if there is one. -/
def ofNumbers? (year month day : Nat) : Option Date :=
  if h : Calendar.isDay year month day = true then some ⟨year, month, day, h⟩ else none

/-- The day of an ISO week, numbered from 1 for Monday. -/
def ofWeek? (year week weekday : Nat) : Option Date :=
  if 1 ≤ year && year ≤ 9999 && 1 ≤ week && week ≤ Calendar.isoWeeks year && 1 ≤ weekday &&
      weekday ≤ 7 then
    let (y, m, d) := Calendar.ofOrdinal (Calendar.firstMonday year + (week - 1) * 7 + weekday - 1)
    ofNumbers? y m d
  else none

/-- The ordinal number of the day. -/
def ordinal (d : Date) : Nat := Calendar.ordinal d.year d.month d.day

instance : Inhabited Date := ⟨⟨1, 1, 1, by decide⟩⟩

end Date
end DocForms
