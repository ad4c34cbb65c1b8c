import Recurrence.Calendar
import Recurrence.Rule

namespace Recurrence

/-! Filters that accept dates by their weekday.

An entry with an ordinal asks for the week of the month too, counted from the end when the ordinal is
negative.  Weeks begin on the calendar's first weekday, and the first and last one may be short.
-/

structure WeekdayFilter where
  entries : List DayEntry
  ordinals : Bool := true
deriving DecidableEq, Repr

namespace WeekdayFilter

def entryAccepts (ordinals : Bool) (entry : DayEntry) (weekday : Weekday) (week weeks : Nat) :
    Bool :=
  entry.weekday == weekday &&
    match entry.ordinal with
    | none => true
    | some ordinal =>
        !ordinals || (0 < ordinal && ordinal == week) ||
          (ordinal < 0 && ordinal == -((weeks : Int) - week + 1))

def accepts (filter : WeekdayFilter) (firstWeekday : Weekday) (time : WallTime) : Bool :=
  filter.entries.any fun entry =>
    entryAccepts filter.ordinals entry time.weekday (time.weekOfMonth firstWeekday)
      (time.weeksInMonth firstWeekday)

def «matches» (filter : WeekdayFilter) (calendar : Calendar) (date : DateTime) : Option Bool :=
  (calendar.localize date).map fun shown => filter.accepts calendar.firstWeekday shown.wall

/-- Whether all filters accept a date; the first that does not is the last that is asked. -/
def matchesAll (calendar : Calendar) (date : DateTime) : List WeekdayFilter → Option Bool
  | [] => some true
  | filter :: rest => do
      if ← filter.matches calendar date then matchesAll calendar date rest else return false

def text (filter : WeekdayFilter) : String :=
  "ByWeekdayFilter(" ++ ",".intercalate (filter.entries.map DayEntry.text) ++ ", use_ordinal=" ++
    (if filter.ordinals then "True" else "False") ++ ")"

end WeekdayFilter

end Recurrence
