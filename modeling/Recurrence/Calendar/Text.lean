import Recurrence.Calendar
import Recurrence.Value.Literal

namespace Recurrence

/-! How a calendar is shown: its zone by name or by offset, and the day on which its weeks start.  The
components of a date are shown by name. -/

/-- A number of microseconds as whole days, the seconds of a day and the microseconds of a second, parts
of zero left out. -/
def spanText (micros : Int) : String :=
  let part (name : String) (size : Int) : List String :=
    if size = 0 then [] else [name ++ Digits.text size]
  let parts := part "days=" (micros / 86400000000) ++
    part "seconds=" (micros % 86400000000 / 1000000) ++ part "microseconds=" (micros % 1000000)
  "datetime.timedelta(" ++ ", ".intercalate parts ++ ")"

def offsetZoneText (offset : Int) : String :=
  if offset = 0 then "datetime.timezone.utc" else "datetime.timezone(" ++ spanText offset ++ ")"

/-- The name of a zone, or how its one offset is shown.  A zone without a name whose offset changes shows
itself in a way of its own. -/
def Zone.text? (zone : Zone) : Option String :=
  let unnamed := zone.constantOffset?.map offsetZoneText
  match zone.name? with
  | some name => if name.isEmpty then unnamed else some (Quoted.text name)
  | none => unnamed

def Calendar.text? (calendar : Calendar) : Option String :=
  calendar.zone.text?.map fun zone =>
    "CalendarContext(timezone=" ++ zone ++ ", first_weekday=" ++ calendar.firstWeekday.code ++ ")"

/-- The parts by name, the offset in whole seconds. -/
def Components.entries (components : Components) : List (String × Value) :=
  let number (value : Nat) : Value := .int (value : Int)
  [("year", number components.year), ("month", number components.month),
    ("day", number components.day), ("hour", number components.hour),
    ("minute", number components.minute), ("second", number components.second),
    ("weekday", .text components.weekday.code), ("week_of_month", number components.weekOfMonth),
    ("weeks_in_month", number components.weeksInMonth),
    ("days_in_month", number components.daysInMonth), ("utc_offset", .int (components.offset / 1000000))]

end Recurrence
