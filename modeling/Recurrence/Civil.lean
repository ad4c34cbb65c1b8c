namespace Recurrence

/-! The proleptic Gregorian calendar as arithmetic on day numbers.

Day 0 is 1 January of year 1, which is a Monday.  `dayNumber` counts the days before a date and
`CivilDate.ofDay` reads the date back; every other module works with day numbers and asks for the
civil date only where a rule speaks about months or years.
-/

/-- Every fourth year is a leap year, except the centuries that 400 does not divide. -/
def isLeapYear (year : Nat) : Bool :=
  year % 4 == 0 && (year % 100 != 0 || year % 400 == 0)

def yearLength (year : Nat) : Nat :=
  if isLeapYear year then 366 else 365

def lastYear : Nat := 9999

/-- The number of days from 1 January of year 1 to 31 December of `lastYear`. -/
def dayCount : Nat := 3652059

/-- The days of the years 1 to `year - 1`. -/
def daysBeforeYear (year : Nat) : Nat :=
  (year - 1) * 365 + (year - 1) / 4 - (year - 1) / 100 + (year - 1) / 400

def monthLengths (year : Nat) : List Nat :=
  [31, if isLeapYear year then 29 else 28, 31, 30, 31, 30, 31, 31, 30, 31, 30, 31]

/-- The length of a month numbered from 1; no month has another number. -/
def monthLength (year month : Nat) : Nat :=
  (monthLengths year).getD (month - 1) 0

def totalDays : List Nat → Nat
  | [] => 0
  | length :: rest => length + totalDays rest

/-- The days of the months January to `month - 1`. -/
def daysBeforeMonth (year month : Nat) : Nat :=
  totalDays ((monthLengths year).take (month - 1))

structure CivilDate where
  year : Nat
  month : Nat
  day : Nat
deriving DecidableEq, Repr

def dayNumber (year month day : Nat) : Nat :=
  daysBeforeYear year + daysBeforeMonth year month + (day - 1)

/-- The number of whole months of the given lengths that fit into `days`, and the days left. -/
def splitMonths : List Nat → Nat → Nat × Nat
  | [], days => (0, days)
  | length :: rest, days =>
      if days < length then (0, days)
      else ((splitMonths rest (days - length)).1 + 1, (splitMonths rest (days - length)).2)

/-- The year of a day and its index in that year.  A cycle of 400 years has 146097 days; the last
century of a cycle, the last four years of a century and the last year of four may be a day longer,
so each quotient is capped. -/
def yearOfDay (day : Nat) : Nat × Nat :=
  let inCycle := day % 146097
  let century := min (inCycle / 36524) 3
  let inCentury := inCycle - century * 36524
  let inFour := inCentury % 1461
  let year := min (inFour / 365) 3
  (day / 146097 * 400 + century * 100 + inCentury / 1461 * 4 + year + 1, inFour - year * 365)

def CivilDate.ofDay (day : Nat) : CivilDate :=
  let year := (yearOfDay day).1
  let split := splitMonths (monthLengths year) (yearOfDay day).2
  ⟨year, split.1 + 1, split.2 + 1⟩

theorem splitMonths_sum (lengths : List Nat) (days : Nat) :
    totalDays (lengths.take (splitMonths lengths days).1) + (splitMonths lengths days).2 = days := by
  induction lengths generalizing days with
  | nil => simp [splitMonths, totalDays]
  | cons length rest ih =>
      unfold splitMonths
      split
      · simp [totalDays]
      · have tail := ih (days - length)
        simp only [List.take_succ_cons, totalDays]
        omega

/-- The days before a year, by its place in the cycle of 400 years. -/
theorem daysBeforeYear_cycle {cycle century four year : Nat}
    (century_le : century ≤ 3) (four_le : four ≤ 24) (year_le : year ≤ 3) :
    daysBeforeYear (cycle * 400 + century * 100 + four * 4 + year + 1) =
      cycle * 146097 + century * 36524 + four * 1461 + year * 365 := by
  simp only [daysBeforeYear, Nat.add_sub_cancel]
  have fours : (cycle * 400 + century * 100 + four * 4 + year) / 4 =
      cycle * 100 + century * 25 + four := by omega
  have centuries : (cycle * 400 + century * 100 + four * 4 + year) / 100 =
      cycle * 4 + century := by omega
  have cycles : (cycle * 400 + century * 100 + four * 4 + year) / 400 = cycle := by omega
  rw [fours, centuries, cycles]
  omega

theorem daysBeforeYear_yearOfDay (day : Nat) :
    daysBeforeYear (yearOfDay day).1 + (yearOfDay day).2 = day := by
  simp only [yearOfDay]
  rw [daysBeforeYear_cycle (by omega) (by omega) (by omega)]
  omega

/-- Reading a day number as a date and counting the days before that date gives the number back. -/
theorem dayNumber_ofDay (day : Nat) :
    dayNumber (CivilDate.ofDay day).year (CivilDate.ofDay day).month (CivilDate.ofDay day).day =
      day := by
  have months := splitMonths_sum (monthLengths (yearOfDay day).1) (yearOfDay day).2
  have years := daysBeforeYear_yearOfDay day
  simp only [CivilDate.ofDay, dayNumber, daysBeforeMonth, Nat.add_sub_cancel]
  omega

end Recurrence
