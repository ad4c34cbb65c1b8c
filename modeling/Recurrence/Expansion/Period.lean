import Recurrence.Expansion.Plan
import Recurrence.Expansion.WeekNumber

namespace Recurrence

/-! The periods of a plan and the days in them.

A period is a year, month, week, day, hour or minute, as the frequency says.  `Plan.keptDays` are the
days of a period that every part of the plan accepts; each part asks only for facts about the day
itself, except that week numbers are those of the year in which the period begins.
-/

inductive Period
  | year (year : Nat)
  | month (year month : Nat)
  /-- The rest of a week from a day on. -/
  | week (day : Nat)
  | day (day : Nat)
  | hour (day hour : Nat)
  | minute (day hour minute : Nat)
deriving DecidableEq, Repr

namespace Period

def ofTime (frequency : Frequency) (time : WallTime) : Period :=
  match frequency with
  | .yearly => .year time.date.year
  | .monthly => .month time.date.year time.date.month
  | .weekly => .week time.day
  | .daily => .day time.day
  | .hourly => .hour time.day time.hour
  | .minutely => .minute time.day time.hour time.minute

def span (firstWeekday : Weekday) : Period → Nat × Nat
  | .year number => (daysBeforeYear number, yearLength number)
  | .month inYear number =>
      (daysBeforeYear inYear + daysBeforeMonth inYear number, monthLength inYear number)
  | .week first => (first, 7 - (Weekday.ofDay first).daysSince firstWeekday)
  | .day number | .hour number _ | .minute number _ _ => (number, 1)

def days (firstWeekday : Weekday) (period : Period) : List Nat :=
  List.range' (period.span firstWeekday).1 (period.span firstWeekday).2

def beginYear : Period → Nat
  | .year number | .month number _ => number
  | .week first | .day first | .hour first _ | .minute first _ _ => (yearOfDay first).1

end Period

namespace Plan

def asksFor (numbers : List Int) (fromStart fromEnd : Int) : Bool :=
  numbers.contains fromStart || numbers.contains fromEnd

/-- The first and the last day of the span in which the nth weekdays are counted: the month, or the
year for a yearly plan without months. -/
def countingSpan (plan : Plan) (date : CivilDate) : Nat × Nat :=
  if plan.frequency = .yearly ∧ plan.months.isEmpty then
    (daysBeforeYear date.year, daysBeforeYear date.year + yearLength date.year - 1)
  else
    let first := daysBeforeYear date.year + daysBeforeMonth date.year date.month
    (first, first + monthLength date.year date.month - 1)

def isNth (span : Nat × Nat) (entry : Weekday × Int) (day : Nat) : Bool :=
  Weekday.ofDay day == entry.1 &&
    (entry.2 == (day - span.1) / 7 + 1 || entry.2 == -(((span.2 - day) / 7 + 1 : Nat) : Int))

def acceptsDay (plan : Plan) (weekYear : WeekYear) (day : Nat) : Bool :=
  let date := CivilDate.ofDay day
  let yearDay := day - daysBeforeYear date.year
  (plan.weekdays.isEmpty || plan.weekdays.contains (Weekday.ofDay day)) &&
    (plan.months.isEmpty || plan.months.contains (date.month : Int)) &&
    (plan.monthDays.isEmpty || asksFor plan.monthDays date.day
      ((date.day : Int) - monthLength date.year date.month - 1)) &&
    (plan.yearDays.isEmpty || asksFor plan.yearDays (yearDay + 1)
      ((yearDay : Int) - yearLength date.year)) &&
    (plan.nthWeekdays.isEmpty || plan.nthWeekdays.any fun entry =>
      isNth (plan.countingSpan date) entry day) &&
    (plan.weeks.isEmpty || weekYear.inWeeks plan.weeks (day - daysBeforeYear weekYear.year))

/-- The days of a period that the plan accepts, and whether there are others.  None when the weeks
asked for depend on the year before the first one. -/
def keptDays (plan : Plan) (period : Period) : Option (List Nat × Bool) :=
  let weekYear : WeekYear := ⟨period.beginYear, plan.firstWeekday⟩
  if weekYear.year ≤ 1 ∧ weekYear.needsLastYear plan.weeks = true then none
  else
    let days := period.days plan.firstWeekday
    let kept := days.filter (plan.acceptsDay weekYear)
    some (kept, kept.length != days.length)

def combinations (hours minutes seconds : List Nat) : List Nat :=
  hours.flatMap fun hour => minutes.flatMap fun minute => seconds.map fun second =>
    hour * 3600 + minute * 60 + second

def times (plan : Plan) : Period → List Nat
  | .hour _ hour => combinations [hour] plan.minutes plan.seconds
  | .minute _ hour minute => combinations [hour] [minute] plan.seconds
  | _ => combinations plan.hours plan.minutes plan.seconds

/-- Whether the plan accepts the hour and the minute of a period.  Only the first period can fail
here, as later ones are chosen to fit. -/
def acceptsTime (plan : Plan) : Period → Bool
  | .hour _ hour => plan.hours.isEmpty || plan.hours.contains hour
  | .minute _ hour minute =>
      (plan.hours.isEmpty || plan.hours.contains hour) &&
        (plan.minutes.isEmpty || plan.minutes.contains minute)
  | _ => true

/-- Steps of an interval on a dial until a value is allowed: the turns of the dial and the value. -/
def turn (interval dial : Nat) (allowed : List Nat) : Nat → Nat → Nat → Option (Nat × Nat)
  | 0, _, _ => none
  | steps + 1, turns, value =>
      let turns := turns + (value + interval) / dial
      let value := (value + interval) % dial
      if allowed.isEmpty || allowed.contains value then some (turns, value)
      else turn interval dial allowed steps turns value

inductive Next
  | period (period : Period)
  | over
  /-- The hours and minutes asked for are never reached together. -/
  | never
deriving DecidableEq, Repr

def onDay (day : Nat) (period : Nat → Period) : Next :=
  if day < dayCount then .period (period day) else .over

def nextMinute (plan : Plan) : Nat → Nat → Nat → Nat → Next
  | 0, _, _, _ => .never
  | steps + 1, day, hour, minute =>
      match turn plan.interval 60 plan.minutes 60 0 minute with
      | none => .never
      | some (hours, minute) =>
          let day := day + (hour + hours) / 24
          let hour := (hour + hours) % 24
          if plan.hours.isEmpty || plan.hours.contains hour then
            onDay day fun day => .minute day hour minute
          else nextMinute plan steps day hour minute

/-- The period after another one.  After a day that was left out the rest of the day is skipped, as
far as whole intervals allow. -/
def next (plan : Plan) (period : Period) (skip : Bool) : Next :=
  match period with
  | .year year =>
      if year + plan.interval ≤ lastYear then .period (.year (year + plan.interval)) else .over
  | .month year month =>
      let months := month - 1 + plan.interval
      if year + months / 12 ≤ lastYear then .period (.month (year + months / 12) (months % 12 + 1))
      else .over
  | .week day =>
      onDay (day + 7 * plan.interval - (Weekday.ofDay day).daysSince plan.firstWeekday) .week
  | .day day => onDay (day + plan.interval) .day
  | .hour day hour =>
      let hour := if skip then hour + (23 - hour) / plan.interval * plan.interval else hour
      match turn plan.interval 24 plan.hours 24 0 hour with
      | none => .never
      | some (days, hour) => onDay (day + days) fun day => .hour day hour
  | .minute day hour minute =>
      let minute :=
        if skip then
          minute + (1439 - (hour * 60 + minute)) / plan.interval * plan.interval
        else minute
      nextMinute plan (1440 / Nat.gcd plan.interval 1440) day hour minute

end Plan

end Recurrence
