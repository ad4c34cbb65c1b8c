import Recurrence.Calendar
import Recurrence.Pieces
import Recurrence.Rule
import Recurrence.Zone.Directory

namespace Recurrence

/-! Writing rules as texts.

FREQ comes first, then the end, the interval if it is not 1, and the parts in their order.  The last
date is written in the shortest form from which a calendar reads the same instant: a wall-clock time
stands alone only if its zone shows it once.
-/

namespace RuleText

variable [Zone.Directory]

def dateChars (time : WallTime) : List Char :=
  Digits.padded time.date.year 4 ++ Digits.padded time.date.month 2 ++
    Digits.padded time.date.day 2

def dateTimeChars (time : WallTime) : List Char :=
  dateChars time ++ 'T' :: Digits.padded time.hour 2 ++ Digits.padded time.minute 2 ++
    Digits.padded time.second 2

inductive DateForm
  /-- The date alone, at midnight in the calendar's zone. -/
  | day (time : WallTime)
  | utc (time : WallTime)
  | zoned (name : String) (time : WallTime)
  /-- A time in the calendar's zone. -/
  | plain (time : WallTime)
deriving DecidableEq, Repr

def DateForm.chars : DateForm → List Char
  | day time => dateChars time
  | utc time => dateTimeChars time ++ ['Z']
  | zoned name time => "TZID=".toList ++ name.toList ++ ':' :: dateTimeChars time
  | plain time => dateTimeChars time

/-- Whether a date has the calendar's own offset at a wall-clock time that its zone shows once. -/
def isLocal (calendar : Calendar) (date : Moment) : Option Bool := do
  let shown ← calendar.localize (.aware date)
  if date.offset = shown.offset then calendar.zone.showsOnce shown.wall else some false

/-- The name under which a date may be written with its own zone. -/
def zoneName? (date : Moment) : Option (Option String) :=
  match date.zone.name? with
  | none => some none
  | some name =>
      if name.isEmpty then some none
      else (date.zone.showsOnce date.wall).map fun once => if once then some name else none

/-- The form in which a date is written; none when a conversion leaves the calendar. -/
def dateForm (calendar : Calendar) (date : Moment) : Option DateForm := do
  let own ← isLocal calendar date
  if own && date.wall.secondOfDay == 0 then return .day date.wall
  if date.offset == 0 then return .utc date.wall
  match ← zoneName? date with
  | some name => return .zoned name date.wall
  | none =>
      if own then return .plain date.wall
      let shown ← Zone.utc.at date.instant
      return .utc shown.wall

/-- Writes numbers behind what a buffer holds, with a comma before every one but the first. -/
def appendFrom (position : Nat) (buffer : List Char) : List Int → List Char
  | [] => buffer
  | number :: rest =>
      let separated := if position = 0 then buffer else buffer ++ [',']
      appendFrom (position + 1) (Digits.append separated number 0) rest

def appendList (buffer : List Char) (numbers : List Int) : List Char := appendFrom 0 buffer numbers

def numberList (numbers : List Int) : List Char :=
  join ',' (numbers.map fun number => Digits.ofInt number 0)

def weekdayList (entries : List DayEntry) : List Char :=
  join ',' (entries.map fun entry => entry.text.toList)

def partValue (rule : Rule) : Part → List Char
  | .weekday => weekdayList rule.weekdays
  | part => numberList (rule.numbers part)

def assigned (key : String) (value : List Char) : List Char := key.toList ++ '=' :: value

def endingPieces (calendar : Calendar) : Ending → Option (List (List Char))
  | .never => some []
  | .afterCount count => some [assigned "COUNT" (Digits.ofInt count 0)]
  | .afterDate date => (dateForm calendar date).map fun form => [assigned "UNTIL" form.chars]

def intervalPieces (rule : Rule) : List (List Char) :=
  if 1 < rule.interval then [assigned "INTERVAL" (Digits.ofInt rule.interval 0)] else []

def partPieces (rule : Rule) : List (List Char) :=
  rule.restrictions.map fun part => assigned part.key (partValue rule part)

def rulePieces (calendar : Calendar) (rule : Rule) : Option (List (List Char)) :=
  (endingPieces calendar rule.ending).map fun ending =>
    assigned "FREQ" rule.frequency.name.toList :: ending ++ intervalPieces rule ++ partPieces rule

/-- Writes a rule; none when its last date cannot be converted. -/
def write (calendar : Calendar) (rule : Rule) : Option String :=
  (rulePieces calendar rule).map fun pieces => String.ofList (join ';' pieces)

end RuleText

end Recurrence
