import Recurrence.Expansion.Period

namespace Recurrence

/-! The times of a plan, one after another.

A stream holds the period it stands in and the times of that period not yet given out, day by day.
`Stream.next` gives out the next time, or tells why there is none.
-/

structure DayTimes where
  day : Nat
  times : List Nat
deriving DecidableEq, Repr

inductive StreamFault
  /-- The weeks asked for depend on the year before the first one. -/
  | beforeCalendar
  /-- A day behind the last one is asked for. -/
  | behindCalendar
  | neverReached
deriving DecidableEq, Repr

def StreamFault.text : StreamFault → String
  | beforeCalendar => "year 0 is out of range"
  | behindCalendar => "year 10000 is out of range"
  | neverReached => "Invalid combination of interval and byhour resulting in empty rule."

inductive Sought
  | found (time : WallTime) (rest : List DayTimes)
  /-- The next time is later than the last one allowed. -/
  | passed
  | outside
  | nothing

inductive StreamAnswer
  | time (time : WallTime)
  | finished
  | failed (fault : StreamFault)
deriving DecidableEq, Repr

namespace Plan

/-- The member of a list at an index, which counts from the end when negative. -/
def pick? (values : List α) (index : Int) : Option α :=
  if index < 0 then
    if -index ≤ values.length then values[(values.length + index).toNat]? else none
  else values[index.toNat]?

def atPosition (days times : List Nat) (position : Int) : Option (Nat × Nat) := do
  let index := if position < 0 then position else position - 1
  let day ← pick? days (Int.fdiv index times.length)
  let time ← times[(Int.fmod index times.length).toNat]?
  return (day, time)

/-- The times at the positions asked for.  A day outside the calendar comes before all others. -/
def atPositions (plan : Plan) (days times : List Nat) : List DayTimes :=
  let found := plan.positions.filterMap (atPosition days times)
  match found.find? fun pair => dayCount ≤ pair.1 with
  | some pair => [⟨pair.1, []⟩]
  | none =>
      (ordered (found.map fun pair => pair.1 * 86400 + pair.2)).map fun second =>
        ⟨second / 86400, [second % 86400]⟩

def select (plan : Plan) (days times : List Nat) : List DayTimes :=
  if plan.positions.isEmpty || times.isEmpty then days.map fun day => ⟨day, times⟩
  else plan.atPositions days times

/-- What a time at hand gives.  A time before the start is passed over. -/
def judge (plan : Plan) (rest : List DayTimes) : Option WallTime → Option Sought
  | none => some .outside
  | some time =>
      if plan.last.any fun last => last < time then some .passed
      else if time < plan.start then none
      else some (.found time rest)

def seekOn (plan : Plan) (day : Nat) (others : List DayTimes) : List Nat → Sought
  | [] => .nothing
  | second :: rest =>
      (plan.judge (⟨day, rest⟩ :: others) (WallTime.ofSeconds? (day * 86400 + second))).getD
        (seekOn plan day others rest)

def seek (plan : Plan) : List DayTimes → Sought
  | [] => .nothing
  | first :: others =>
      if dayCount ≤ first.day then .outside
      else
        match plan.seekOn first.day others first.times with
        | .nothing => plan.seek others
        | sought => sought

end Plan

structure Stream where
  plan : Plan
  period : Period
  /-- The times of the period that are left; none when they cannot be told. -/
  pending : Option (List DayTimes)
  /-- Whether some day of the period was left out. -/
  skip : Bool
  remaining : Option Int
  ended : Bool

namespace Stream

/-- A stream at the beginning of a period whose times of day are given. -/
def enter (stream : Stream) (period : Period) (times : List Nat) : Stream :=
  match stream.plan.keptDays period with
  | none => { stream with period, pending := none, skip := false }
  | some (days, skip) =>
      { stream with period, pending := some (stream.plan.select days times), skip }

def ofPlan (plan : Plan) : Stream :=
  let period := Period.ofTime plan.frequency plan.start
  enter ⟨plan, period, none, false, plan.count, false⟩ period
    (if plan.acceptsTime period then plan.times period else [])

def close (stream : Stream) : Stream := { stream with ended := true, pending := some [] }

def give (stream : Stream) (time : WallTime) (rest : List DayTimes) : StreamAnswer × Stream :=
  match stream.remaining with
  | none => (.time time, { stream with pending := some rest })
  | some remaining =>
      if remaining ≤ 0 then (.finished, stream.close)
      else
        (.time time, { stream with pending := some rest, remaining := some (remaining - 1) })

def nextWithin : Nat → Stream → StreamAnswer × Stream
  | 0, stream => (.finished, stream.close)
  | periods + 1, stream =>
      match stream.pending with
      | none => (.failed .beforeCalendar, stream.close)
      | some pending =>
          match stream.plan.seek pending with
          | .found time rest => stream.give time rest
          | .passed => (.finished, stream.close)
          | .outside => (.failed .behindCalendar, stream.close)
          | .nothing =>
              match stream.plan.next stream.period stream.skip with
              | .period period =>
                  nextWithin periods (stream.enter period (stream.plan.times period))
              | .over => (.finished, stream.close)
              | .never => (.failed .neverReached, stream.close)

/-- The number of minutes in the calendar.  No plan has more periods. -/
def minuteCount : Nat := dayCount * 1440

def next (stream : Stream) : StreamAnswer × Stream :=
  if stream.ended then (.finished, stream) else nextWithin (minuteCount + 1) stream

end Stream

end Recurrence
