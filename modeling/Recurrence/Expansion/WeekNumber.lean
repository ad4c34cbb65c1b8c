import Recurrence.Weekday
import Recurrence.Civil

namespace Recurrence

/-! The numbered weeks of a year.

Weeks begin on a chosen weekday, and week 1 is the first with at least four days in the year.  The days
of a year are counted from 0 on 1 January; a week may reach into the next year.
-/

structure WeekYear where
  year : Nat
  firstWeekday : Weekday
deriving DecidableEq, Repr

namespace WeekYear

def length (weekYear : WeekYear) : Nat := yearLength weekYear.year

def opening (weekYear : WeekYear) : Weekday := .ofDay (daysBeforeYear weekYear.year)

/-- The days before the first week that begins in the year. -/
def lead (weekYear : WeekYear) : Nat :=
  (7 + weekYear.firstWeekday.index - weekYear.opening.index) % 7

/-- Whether the days before the first beginning of a week are themselves week 1. -/
def opensInWeekOne (weekYear : WeekYear) : Bool := 4 ≤ weekYear.lead

/-- The days before week 1, those of the last year's last week. -/
def leftOver (weekYear : WeekYear) : Nat :=
  if weekYear.opensInWeekOne then 0 else weekYear.lead

/-- The days in the weeks of the year, with those that week 1 took from the last year. -/
def weekDays (weekYear : WeekYear) : Nat :=
  if weekYear.opensInWeekOne then
    weekYear.length + weekYear.opening.daysSince weekYear.firstWeekday
  else weekYear.length - weekYear.lead

/-- The number of weeks; the last one counts when four of its days are in the year. -/
def weekCount (weekYear : WeekYear) : Nat :=
  weekYear.weekDays / 7 + weekYear.weekDays % 7 / 4

/-- The day on which a week begins, for week 1 its first day in the year. -/
def weekStart (weekYear : WeekYear) (week : Nat) : Nat :=
  let full := weekYear.leftOver + (week - 1) * 7
  if weekYear.opensInWeekOne ∧ 1 < week then full - (7 - weekYear.lead) else full

/-- Whether a day lies between a day and the next beginning of a week. -/
def sameWeek (weekYear : WeekYear) (first day : Nat) : Bool :=
  let passed := (Weekday.ofDay (daysBeforeYear weekYear.year + first)).daysSince
    weekYear.firstWeekday
  first ≤ day && day < first + (7 - passed)

/-- Whether a day lies in a week, counted from the end of the year when negative. -/
def inWeek (weekYear : WeekYear) (week : Int) (day : Nat) : Bool :=
  let number := if week < 0 then week + weekYear.weekCount + 1 else week
  0 < number && number ≤ weekYear.weekCount &&
    weekYear.sameWeek (weekYear.weekStart number.toNat) day

def inNextWeekOne (weekYear : WeekYear) (day : Nat) : Bool :=
  let first := weekYear.weekStart (weekYear.weekCount + 1)
  first < weekYear.length && weekYear.sameWeek first day

def lastYearWeekCount (weekYear : WeekYear) : Nat :=
  let before : WeekYear := { weekYear with year := weekYear.year - 1 }
  let days :=
    if before.opensInWeekOne then
      before.length + before.opening.daysSince weekYear.firstWeekday
    else weekYear.length - weekYear.leftOver
  52 + days % 7 / 4

/-- Whether a day lies in one of the weeks asked for.  The days before week 1 belong to the last
year's last week, which is asked for by its number or, when the last week of every year is asked for,
by -1. -/
def inWeeks (weekYear : WeekYear) (weeks : List Int) (day : Nat) : Bool :=
  weeks.any (fun week => weekYear.inWeek week day) ||
    (weeks.contains 1 && weekYear.inNextWeekOne day) ||
    (day < weekYear.leftOver &&
      (weeks.contains (-1) || weeks.contains (weekYear.lastYearWeekCount : Int)))

def needsLastYear (weekYear : WeekYear) (weeks : List Int) : Bool :=
  !weeks.isEmpty && 0 < weekYear.leftOver && !weeks.contains (-1)

end WeekYear

end Recurrence
