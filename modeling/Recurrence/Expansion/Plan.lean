import Recurrence.Rule

namespace Recurrence

/-! What a rule means for one start.

A plan completes a rule by its start: what the rule leaves open, the start decides.  Times carry no
zone here, and seconds are the least unit.  `ordered_pairwise` says that the lists of a plan's times
are increasing.
-/

def insertOrdered (number : Nat) : List Nat → List Nat
  | [] => [number]
  | first :: rest =>
      if number < first then number :: first :: rest
      else if number = first then first :: rest
      else first :: insertOrdered number rest

def ordered (numbers : List Nat) : List Nat := numbers.foldr insertOrdered []

/-- The units in which a plan's times of day are counted on from one occurrence to the next. -/
def Frequency.withinDay : Frequency → Bool
  | .hourly | .minutely => true
  | _ => false

/-- Whether the ordinals of weekdays have a meaning: within a month or a year. -/
def Frequency.countsWeekdays : Frequency → Bool
  | .yearly | .monthly => true
  | _ => false

structure Plan where
  frequency : Frequency
  interval : Nat
  firstWeekday : Weekday
  start : WallTime
  last : Option WallTime
  count : Option Int
  positions : List Int
  /-- The months, days and weeks asked for; an empty list asks for nothing. -/
  months : List Int
  monthDays : List Int
  yearDays : List Int
  weeks : List Int
  weekdays : List Weekday
  nthWeekdays : List (Weekday × Int)
  /-- The hours and minutes asked for; empty where every period has its own. -/
  hours : List Nat
  minutes : List Nat
  seconds : List Nat
deriving Repr

namespace Plan

/-- The values that steps of an interval can reach on a dial from a first value. -/
def reachable (interval dial first : Nat) (values : List Nat) : List Nat :=
  values.filter fun value => ((value : Int) - first) % (Nat.gcd interval dial : Nat) = 0

def leavesDaysOpen (rule : Rule) : Bool :=
  rule.weeks.isEmpty && rule.yearDays.isEmpty && rule.monthDays.isEmpty && rule.weekdays.isEmpty

/-- The months of a plan: a yearly rule that leaves its days open keeps to the month of its start. -/
def monthsOf (rule : Rule) (start : WallTime) : List Int :=
  if leavesDaysOpen rule && rule.frequency == .yearly && rule.months.isEmpty then
    [(start.date.month : Int)]
  else rule.months

def monthDaysOf (rule : Rule) (start : WallTime) : List Int :=
  if leavesDaysOpen rule && rule.frequency.countsWeekdays then [(start.date.day : Int)]
  else rule.monthDays

def weekdaysOf (rule : Rule) (start : WallTime) : List Weekday :=
  if leavesDaysOpen rule && rule.frequency == .weekly then [start.weekday]
  else
    (rule.weekdays.filter fun entry =>
      !rule.frequency.countsWeekdays || entry.ordinal.getD 0 == 0).map DayEntry.weekday

def nthWeekdaysOf (rule : Rule) : List (Weekday × Int) :=
  if rule.frequency.countsWeekdays then
    rule.weekdays.filterMap fun entry =>
      match entry.ordinal with
      | some ordinal => if ordinal = 0 then none else some (entry.weekday, ordinal)
      | none => none
  else []

/-- The hours of a plan; none when the rule asks for hours that it never reaches. -/
def hoursOf (rule : Rule) (start : WallTime) : Option (List Nat) :=
  let given := ordered (rule.hours.map Int.toNat)
  if given.isEmpty then some (if rule.frequency.withinDay then [] else [start.hour])
  else if rule.frequency = .hourly then
    let reached := reachable rule.interval.toNat 24 start.hour given
    if reached.isEmpty then none else some reached
  else some given

def minutesOf (rule : Rule) (start : WallTime) : Option (List Nat) :=
  let given := ordered (rule.minutes.map Int.toNat)
  if given.isEmpty then some (if rule.frequency = .minutely then [] else [start.minute])
  else if rule.frequency = .minutely then
    let reached := reachable rule.interval.toNat 60 start.minute given
    if reached.isEmpty then none else some reached
  else some given

def secondsOf (rule : Rule) (start : WallTime) : List Nat :=
  let given := ordered (rule.seconds.map Int.toNat)
  if given.isEmpty then [start.second] else given

def ofRule (rule : Rule) (start : WallTime) (last : Option WallTime) (firstWeekday : Weekday) :
    Option Plan := do
  let start := start.truncate
  let hours ← hoursOf rule start
  let minutes ← minutesOf rule start
  return {
    frequency := rule.frequency, interval := rule.interval.toNat, firstWeekday, start, last,
    count := rule.ending.count?, positions := rule.positions, months := monthsOf rule start,
    monthDays := monthDaysOf rule start, yearDays := rule.yearDays, weeks := rule.weeks,
    weekdays := weekdaysOf rule start, nthWeekdays := nthWeekdaysOf rule, hours, minutes,
    seconds := secondsOf rule start }

end Plan

theorem mem_insertOrdered {number other : Nat} {numbers : List Nat} :
    other ∈ insertOrdered number numbers ↔ other = number ∨ other ∈ numbers := by
  induction numbers with
  | nil => simp [insertOrdered]
  | cons first rest ih =>
      unfold insertOrdered
      split
      · simp
      · split
        · next same => simp [same]
        · simp only [List.mem_cons, ih]
          constructor <;> rintro (found | found | found) <;> simp [found]

theorem insertOrdered_pairwise {number : Nat} {numbers : List Nat}
    (increasing : numbers.Pairwise (· < ·)) : (insertOrdered number numbers).Pairwise (· < ·) := by
  induction numbers with
  | nil => simp [insertOrdered]
  | cons first rest ih =>
      obtain ⟨before, tail⟩ := List.pairwise_cons.1 increasing
      unfold insertOrdered
      split
      · next smaller =>
          refine List.pairwise_cons.2 ⟨fun other member => ?_, increasing⟩
          rcases List.mem_cons.1 member with rfl | later
          · exact smaller
          · exact Nat.lt_trans smaller (before other later)
      · next notSmaller =>
          split
          · exact increasing
          · next differs =>
              refine List.pairwise_cons.2 ⟨fun other member => ?_, ih tail⟩
              rcases mem_insertOrdered.1 member with rfl | later
              · omega
              · exact before other later

theorem ordered_pairwise (numbers : List Nat) : (ordered numbers).Pairwise (· < ·) := by
  induction numbers with
  | nil => exact List.Pairwise.nil
  | cons first rest ih => exact insertOrdered_pairwise ih

theorem mem_ordered {number : Nat} {numbers : List Nat} :
    number ∈ ordered numbers ↔ number ∈ numbers := by
  induction numbers with
  | nil => simp [ordered]
  | cons first rest ih =>
      have unfolded : ordered (first :: rest) = insertOrdered first (ordered rest) := rfl
      rw [unfolded, mem_insertOrdered, ih, List.mem_cons]

end Recurrence
