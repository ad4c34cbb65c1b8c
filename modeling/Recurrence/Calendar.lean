import Recurrence.DateParts
import Recurrence.Moment

namespace Recurrence

/-! Calendar arithmetic in one zone, with a choice of the day on which weeks start.

A calendar expresses every date-time in its own zone before it looks at it: `Calendar.localize` reads
naive times in the zone and shows moments of other zones in it.  `none` means that a time lies outside
the calendar.
-/

structure Calendar where
  zone : Zone := .utc
  firstWeekday : Weekday := .monday
deriving DecidableEq, Repr

structure Components where
  year : Nat
  month : Nat
  day : Nat
  hour : Nat
  minute : Nat
  second : Nat
  weekday : Weekday
  weekOfMonth : Nat
  weeksInMonth : Nat
  daysInMonth : Nat
  offset : Int
deriving DecidableEq, Repr

namespace WallTime

/-- The number of days from the last start of a week up to the first of the time's month. -/
def firstWeekOffset (time : WallTime) (firstWeekday : Weekday) : Nat :=
  (Weekday.ofDay (time.day - (time.date.day - 1))).daysSince firstWeekday

/-- The week of the month in which the time lies.  The first week may be a short one. -/
def weekOfMonth (time : WallTime) (firstWeekday : Weekday) : Nat :=
  (time.date.day - 1 + time.firstWeekOffset firstWeekday) / 7 + 1

def daysInMonth (time : WallTime) : Nat :=
  monthLength time.date.year time.date.month

/-- The number of weeks that have a day in the month, short ones included. -/
def weeksInMonth (time : WallTime) (firstWeekday : Weekday) : Nat :=
  (time.daysInMonth - 1 + time.firstWeekOffset firstWeekday) / 7 + 1

end WallTime

namespace Calendar

def lastWeekday (calendar : Calendar) : Weekday :=
  .ofIndex (calendar.firstWeekday.index - 1)

def localize (calendar : Calendar) : DateTime → Option Moment
  | .naive time => calendar.zone.localize time
  | .aware moment =>
      if calendar.zone.keeps moment.zone then some moment
      else calendar.zone.at moment.instant

def makeDate (calendar : Calendar) (parts : DateParts) (zone : Option Zone) :
    Except DateFault (Option Moment) :=
  parts.wallTime.map (zone.getD calendar.zone).localize

/-- Shifts by whole days and keeps the time of day that the clock shows. -/
def addDays (calendar : Calendar) (date : DateTime) (days : Int) : Option Moment := do
  let shown ← calendar.localize date
  let moved ← shown.wall.addDays days
  calendar.zone.localize moved

def weekday (calendar : Calendar) (date : DateTime) : Option Weekday :=
  (calendar.localize date).map fun shown => shown.wall.weekday

def isLastWeekday (calendar : Calendar) (date : DateTime) : Option Bool :=
  (calendar.weekday date).map fun weekday => weekday == calendar.lastWeekday

def weekOfMonth (calendar : Calendar) (date : DateTime) : Option Nat :=
  (calendar.localize date).map fun shown => shown.wall.weekOfMonth calendar.firstWeekday

def daysInMonth (calendar : Calendar) (date : DateTime) : Option Nat :=
  (calendar.localize date).map fun shown => shown.wall.daysInMonth

def weeksInMonth (calendar : Calendar) (date : DateTime) : Option Nat :=
  (calendar.localize date).map fun shown => shown.wall.weeksInMonth calendar.firstWeekday

/-- Takes a date apart.  The weekday stands for the date shown; the three facts about the month are
asked of the date once more. -/
def components (calendar : Calendar) (date : DateTime) : Option Components := do
  let shown ← calendar.localize date
  let weekOfMonth ← calendar.weekOfMonth (.aware shown)
  let weeksInMonth ← calendar.weeksInMonth (.aware shown)
  let daysInMonth ← calendar.daysInMonth (.aware shown)
  return {
    year := shown.wall.date.year, month := shown.wall.date.month, day := shown.wall.date.day,
    hour := shown.wall.hour, minute := shown.wall.minute, second := shown.wall.second,
    weekday := shown.wall.weekday, weekOfMonth, weeksInMonth, daysInMonth,
    offset := shown.offset }

end Calendar

end Recurrence
