import Recurrence.Calendar
import Recurrence.Report
import Recurrence.Rule
import Recurrence.Expansion.Stream
import Recurrence.WeekdayFilter

namespace Recurrence

/-! Generators: what gives out the occurrences of a rule one by one.

Every generator has a course, which never changes, and a cursor: the date it stands at, the number of
dates given out, and whether it is exhausted.  A step gives an answer and the cursor after it, also
when the answer is that a date lies outside the calendar.
-/

structure GeneratorError where
  generator : String
  frequency : Frequency
  reason : Option String
deriving DecidableEq, Repr

def GeneratorError.report (error : GeneratorError) : Report :=
  .generator (.text error.generator) (.text error.frequency.name) (.ofText? error.reason)

/-- How building a generator fails: because it does not take the rule, or because a date lies outside
the calendar. -/
inductive BuildFailure
  | refused (error : GeneratorError)
  | outOfRange
deriving DecidableEq, Repr

inductive RangeFault
  | date
  | shift (days : Int)
deriving DecidableEq, Repr

def greatestShift : Nat := 999999999

def RangeFault.text : RangeFault → String
  | date => "date value out of range"
  | shift days =>
      if days.natAbs < 2147483648 then
        "days=" ++ Digits.text days ++ "; must have magnitude <= " ++ Digits.text greatestShift
      else "Python int too large to convert to C int"

inductive Breakdown
  | outOfRange (fault : RangeFault)
  | failed (fault : StreamFault)
deriving DecidableEq, Repr

def Breakdown.range : Breakdown := .outOfRange .date

inductive Answer
  | date (moment : Moment)
  | finished
  | broken (breakdown : Breakdown)
deriving DecidableEq, Repr

/-- How the next date is asked for: as a date or none, or as the next item of an iterator. -/
inductive Request
  | advance
  | next
deriving DecidableEq, Repr

/-- What is told of an answer.  An iterator signals its end by `stop`. -/
inductive Reply
  | date (moment : Moment)
  | nothing
  | stop
  | broken (breakdown : Breakdown)
deriving DecidableEq, Repr

def Answer.reply (answer : Answer) (request : Request) : Reply :=
  match answer, request with
  | .date moment, _ => .date moment
  | .finished, .advance => .nothing
  | .finished, .next => .stop
  | .broken breakdown, _ => .broken breakdown

structure Course where
  calendar : Calendar
  interval : Int
  ending : Ending
  /-- The last date, shown in the calendar's zone. -/
  last : Option Moment
deriving DecidableEq, Repr

structure Cursor where
  current : Moment
  count : Nat
  exhausted : Bool
deriving DecidableEq, Repr

namespace Course

def begin? (rule : Rule) (start : DateTime) (calendar : Calendar) : Option (Course × Cursor) := do
  let last ← match rule.ending.date? with
    | none => some none
    | some date => (calendar.localize (.aware date)).map some
  let current ← calendar.localize start
  return (⟨calendar, rule.interval, rule.ending, last⟩, ⟨current, 0, false⟩)

/-- Whether all dates have been given out, or the cursor stands behind the last one. -/
def reachedEnd (course : Course) (cursor : Cursor) : Bool :=
  course.ending.count?.any (fun (count : Int) => decide (count ≤ cursor.count)) ||
    course.last.any fun last => last.isBefore cursor.current

end Course

structure StepGenerator where
  course : Course
  cursor : Cursor
  step : Course → Cursor → Answer × Cursor

/-- A generator that walks from day to day and gives out the days that a filter accepts. -/
structure WeeklyWalk where
  course : Course
  cursor : Cursor
  filter : WeekdayFilter
deriving DecidableEq, Repr

structure Expander where
  course : Course
  cursor : Cursor
  stream : Stream

namespace WeeklyWalk

def name : String := "WeeklyGenerator"

/-- The date after another one: the next day, or the first day of the next active week. -/
def nextDate (course : Course) (date : Moment) : Except RangeFault Moment :=
  match course.calendar.isLastWeekday (.aware date) with
  | none => .error .date
  | some last =>
      let days := if last then 1 + (course.interval - 1) * 7 else 1
      if greatestShift < days.natAbs then .error (.shift days)
      else
        match course.calendar.addDays (.aware date) days with
        | none => .error .date
        | some after => .ok after

def walk (course : Course) (filter : WeekdayFilter) : Nat → Cursor → Answer × Cursor
  | 0, cursor => (.broken .range, cursor)
  | days + 1, cursor =>
      if course.reachedEnd cursor then (.finished, { cursor with exhausted := true })
      else
        match nextDate course cursor.current with
        | .error fault => (.broken (.outOfRange fault), cursor)
        | .ok after =>
            match filter.matches course.calendar (.aware cursor.current) with
            | none => (.broken .range, { cursor with current := after })
            | some true =>
                (.date cursor.current, { cursor with current := after, count := cursor.count + 1 })
            | some false => walk course filter days { cursor with current := after }

/-- The next date.  Every day of a walk is later than the one before, so the walk ends before it has
seen every day of the calendar. -/
def advance (generator : WeeklyWalk) : Answer × WeeklyWalk :=
  if generator.cursor.exhausted then (.finished, generator)
  else
    let step := walk generator.course generator.filter (dayCount + 1) generator.cursor
    (step.1, { generator with cursor := step.2 })

/-- The entries by which a rule's days are chosen: its own, or the weekday of the start. -/
def entries (rule : Rule) (course : Course) (cursor : Cursor) : Option (List DayEntry) :=
  if rule.weekdays.isEmpty then
    (course.calendar.weekday (.aware cursor.current)).map fun weekday => [.every weekday]
  else some rule.weekdays

def build (rule : Rule) (start : DateTime) (calendar : Calendar) :
    Except BuildFailure WeeklyWalk :=
  if rule.frequency ≠ .weekly then .error (.refused ⟨name, rule.frequency, none⟩)
  else
    match Course.begin? rule start calendar with
    | none => .error .outOfRange
    | some (course, cursor) =>
        match entries rule course cursor with
        | none => .error .outOfRange
        | some entries => .ok ⟨course, cursor, ⟨entries, false⟩⟩

end WeeklyWalk

namespace Expander

def name : String := "RFC5545Generator"

/-- The next date.  A date is counted before it is shown in the calendar's zone. -/
def advance (generator : Expander) : Answer × Expander :=
  let cursor := generator.cursor
  if cursor.exhausted then (.finished, generator)
  else
    let step := generator.stream.next
    match step.1 with
    | .finished =>
        (.finished, { generator with
          stream := step.2, cursor := { cursor with exhausted := true } })
    | .failed fault => (.broken (.failed fault), { generator with stream := step.2 })
    | .time time =>
        let counted := { cursor with count := cursor.count + 1 }
        match generator.course.calendar.localize (.naive time) with
        | none => (.broken .range, { generator with stream := step.2, cursor := counted })
        | some date =>
            (.date date, { generator with
              stream := step.2, cursor := { counted with current := date } })

def build (rule : Rule) (start : DateTime) (calendar : Calendar) :
    Except BuildFailure Expander :=
  match Course.begin? rule start calendar with
  | none => .error .outOfRange
  | some (course, cursor) =>
      let refuse (reason : String) : Except BuildFailure Expander :=
        .error (.refused ⟨name, rule.frequency, some reason⟩)
      if rule.seconds.contains 60 then refuse "leap seconds cannot be generated"
      else
        match Plan.ofRule rule cursor.current.wall (course.last.map Moment.wall)
            calendar.firstWeekday with
        | none => refuse "Invalid rrule byxxx generates an empty set."
        | some plan => .ok ⟨course, cursor, .ofPlan plan⟩

end Expander

namespace StepGenerator

def advance (generator : StepGenerator) : Answer × StepGenerator :=
  let step := generator.step generator.course generator.cursor
  (step.1, { generator with cursor := step.2 })

end StepGenerator

inductive Generator
  | weekly (walk : WeeklyWalk)
  | expanding (expander : Expander)
  | stepping (generator : StepGenerator)

namespace Generator

def course : Generator → Course
  | weekly walk => walk.course
  | expanding expander => expander.course
  | stepping generator => generator.course

def cursor : Generator → Cursor
  | weekly walk => walk.cursor
  | expanding expander => expander.cursor
  | stepping generator => generator.cursor

def advance : Generator → Answer × Generator
  | weekly walk => (walk.advance.1, .weekly walk.advance.2)
  | expanding expander => (expander.advance.1, .expanding expander.advance.2)
  | stepping generator => (generator.advance.1, .stepping generator.advance.2)

def reply (generator : Generator) (request : Request) : Reply × Generator :=
  (generator.advance.1.reply request, generator.advance.2)

/-- Takes up to a number of dates and none behind a bound. -/
def take (bound : Option Moment) : Nat → Generator → Except Breakdown (List Moment) × Generator
  | 0, generator => (.ok [], generator)
  | wanted + 1, generator =>
      let step := generator.advance
      match step.1 with
      | .finished => (.ok [], step.2)
      | .broken breakdown => (.error breakdown, step.2)
      | .date date =>
          if bound.any fun last => last.isBefore date then (.ok [], step.2)
          else
            let later := take bound wanted step.2
            (later.1.map fun dates => date :: dates, later.2)

end Generator

end Recurrence
