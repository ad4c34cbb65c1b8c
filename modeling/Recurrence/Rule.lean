import Recurrence.Digits
import Recurrence.Moment

namespace Recurrence

/-! Recurrence rules as data.

A `Rule` repeats with a frequency and an interval, ends in one of three ways and restricts its
occurrences by nine parts, each a list in which order and repetitions are kept.  `Rule.Valid` says
which rules make sense; the type itself does not, so that a rule may be edited field by field.
`Rule.same` compares two rules with the dates of their ends taken as instants.
-/

inductive Frequency
  | yearly
  | monthly
  | weekly
  | daily
  | hourly
  | minutely
deriving DecidableEq, Repr

namespace Frequency

def all : List Frequency := [minutely, hourly, daily, weekly, monthly, yearly]

def name : Frequency → String
  | yearly => "YEARLY"
  | monthly => "MONTHLY"
  | weekly => "WEEKLY"
  | daily => "DAILY"
  | hourly => "HOURLY"
  | minutely => "MINUTELY"

def ofName? (text : String) : Option Frequency :=
  all.find? fun frequency => frequency.name == text

theorem ofName?_name (frequency : Frequency) : ofName? frequency.name = some frequency := by
  cases frequency <;> decide

end Frequency

structure Domain where
  least : Int
  greatest : Int
  zero : Bool
deriving DecidableEq, Repr

namespace Domain

def has (domain : Domain) (value : Int) : Bool :=
  (domain.zero || value != 0) && decide (domain.least ≤ value ∧ value ≤ domain.greatest)

def ordinals : Domain := ⟨-5, 5, false⟩

end Domain

/-- A weekday, or its nth occurrence in a period, counted from the end when negative. -/
structure DayEntry where
  ordinal : Option Int
  weekday : Weekday
deriving DecidableEq, Repr

namespace DayEntry

def every (weekday : Weekday) : DayEntry := ⟨none, weekday⟩

def text (entry : DayEntry) : String :=
  match entry.ordinal with
  | none => entry.weekday.code
  | some ordinal => Digits.text ordinal ++ entry.weekday.code

def Valid (entry : DayEntry) : Prop :=
  ∀ ordinal ∈ entry.ordinal, Domain.ordinals.has ordinal = true

instance (entry : DayEntry) : Decidable entry.Valid :=
  inferInstanceAs (Decidable (∀ ordinal ∈ entry.ordinal, Domain.ordinals.has ordinal = true))

end DayEntry

inductive Part
  | second
  | minute
  | hour
  | weekday
  | monthDay
  | yearDay
  | week
  | month
  | position
deriving DecidableEq, Repr

namespace Part

/-- The parts in the order in which they are written. -/
def all : List Part :=
  [second, minute, hour, weekday, monthDay, yearDay, week, month, position]

def key : Part → String
  | second => "BYSECOND"
  | minute => "BYMINUTE"
  | hour => "BYHOUR"
  | weekday => "BYDAY"
  | monthDay => "BYMONTHDAY"
  | yearDay => "BYYEARDAY"
  | week => "BYWEEKNO"
  | month => "BYMONTH"
  | position => "BYSETPOS"

def field : Part → String
  | second => "seconds"
  | minute => "minutes"
  | hour => "hours"
  | weekday => "weekdays"
  | monthDay => "days_of_month"
  | yearDay => "days_of_year"
  | week => "weeks_of_year"
  | month => "months"
  | position => "set_positions"

/-- The values that a part of numbers admits.  For weekdays it bounds the ordinals. -/
def domain : Part → Domain
  | second => ⟨0, 60, true⟩
  | minute => ⟨0, 59, true⟩
  | hour => ⟨0, 23, true⟩
  | weekday => Domain.ordinals
  | monthDay => ⟨-31, 31, false⟩
  | yearDay => ⟨-366, 366, false⟩
  | week => ⟨-53, 53, false⟩
  | month => ⟨1, 12, true⟩
  | position => ⟨-366, 366, false⟩

def ofKey? (text : String) : Option Part :=
  all.find? fun part => part.key == text

theorem mem_all (part : Part) : part ∈ all := by
  cases part <;> decide

end Part

inductive Ending
  | never
  | afterCount (count : Int)
  | afterDate (date : Moment)
deriving DecidableEq, Repr

namespace Ending

def count? : Ending → Option Int
  | .afterCount count => some count
  | _ => none

def date? : Ending → Option Moment
  | .afterDate date => some date
  | _ => none

def isNever : Ending → Bool
  | .never => true
  | _ => false

/-- Counts are positive and dates have whole seconds. -/
def Valid : Ending → Prop
  | .never => True
  | .afterCount count => 1 ≤ count
  | .afterDate date => date.wall.microsecond = 0

instance (ending : Ending) : Decidable ending.Valid := by
  cases ending <;> unfold Valid <;> infer_instance

def same : Ending → Ending → Bool
  | .never, .never => true
  | .afterCount first, .afterCount second => first == second
  | .afterDate first, .afterDate second => first.same second
  | _, _ => false

end Ending

structure Rule where
  frequency : Frequency
  interval : Int := 1
  ending : Ending := .never
  seconds : List Int := []
  minutes : List Int := []
  hours : List Int := []
  weekdays : List DayEntry := []
  monthDays : List Int := []
  yearDays : List Int := []
  weeks : List Int := []
  months : List Int := []
  positions : List Int := []
deriving DecidableEq, Repr

namespace Rule

def numbers (rule : Rule) : Part → List Int
  | .second => rule.seconds
  | .minute => rule.minutes
  | .hour => rule.hours
  | .weekday => []
  | .monthDay => rule.monthDays
  | .yearDay => rule.yearDays
  | .week => rule.weeks
  | .month => rule.months
  | .position => rule.positions

def withNumbers (rule : Rule) (part : Part) (values : List Int) : Rule :=
  match part with
  | .second => { rule with seconds := values }
  | .minute => { rule with minutes := values }
  | .hour => { rule with hours := values }
  | .weekday => rule
  | .monthDay => { rule with monthDays := values }
  | .yearDay => { rule with yearDays := values }
  | .week => { rule with weeks := values }
  | .month => { rule with months := values }
  | .position => { rule with positions := values }

def restricts (rule : Rule) : Part → Bool
  | .weekday => !rule.weekdays.isEmpty
  | part => !(rule.numbers part).isEmpty

def restrictions (rule : Rule) : List Part := Part.all.filter rule.restricts

/-- A rule makes sense when its interval is positive, its end is valid, and every value of every part
lies in the domain of the part. -/
def Valid (rule : Rule) : Prop :=
  1 ≤ rule.interval ∧ rule.ending.Valid ∧ (∀ entry ∈ rule.weekdays, entry.Valid) ∧
    ∀ part ∈ Part.all, ∀ value ∈ rule.numbers part, part.domain.has value = true

instance (rule : Rule) : Decidable rule.Valid := by
  unfold Valid
  infer_instance

/-- Whether two rules are equal, the dates of their ends compared as instants. -/
def same (first second : Rule) : Bool :=
  first.frequency == second.frequency && first.interval == second.interval &&
    first.ending.same second.ending && first.weekdays == second.weekdays &&
    Part.all.all fun part => first.numbers part == second.numbers part

theorem same_refl (rule : Rule) : rule.same rule = true := by
  have ending : rule.ending.same rule.ending = true := by
    cases rule.ending <;> simp [Ending.same, Moment.same]
  simp [same, ending]

end Rule

end Recurrence
