import Recurrence.Calendar
import Recurrence.Proofs.Civil

namespace Recurrence

/-! The weeks of a month.

A week begins on every day of a month that is the calendar's first weekday, and the first week of a
month may be short.  So the week in which a day lies is told by the number of weeks that begin from the
second of the month up to the day: `WallTime.weekOfMonth_eq`.  From one day to the next it changes
exactly where a week or a month begins: `WallTime.sameWeek_iff`.
-/

namespace Weekday

theorem daysSince_eq_zero {weekday first : Weekday} :
    weekday.daysSince first = 0 ↔ weekday = first := by
  cases weekday <;> cases first <;> decide

theorem daysSince_lt (weekday first : Weekday) : weekday.daysSince first < 7 :=
  Nat.mod_lt _ (by decide)

theorem daysSince_ofDay_add (day days : Nat) (firstWeekday : Weekday) :
    (ofDay (day + days)).daysSince firstWeekday =
      (days + (ofDay day).daysSince firstWeekday) % 7 := by
  have bound := firstWeekday.index_lt
  simp only [daysSince, index_ofDay]
  omega

end Weekday

/-- The numbers from a first to a last one, both included. -/
def daysBetween (first last : Nat) : List Nat := List.range' first (last + 1 - first)

namespace CivilDate

variable {date : CivilDate} {firstWeekday : Weekday} {first last : Nat}

def weekday (date : CivilDate) : Weekday :=
  .ofDay (dayNumber date.year date.month date.day)

/-- The number of days of the date's month. -/
def lastDay (date : CivilDate) : Nat := monthLength date.year date.month

/-- How many weeks begin on the days of the date's month from a first to a last one. -/
def weekStarts (date : CivilDate) (firstWeekday : Weekday) (first last : Nat) : Nat :=
  (daysBetween first last).countP fun day =>
    ({ date with day } : CivilDate).weekday == firstWeekday

/-- The number of days from the last start of a week up to the first of the date's month. -/
def offset (date : CivilDate) (firstWeekday : Weekday) : Nat :=
  ({ date with day := 1 } : CivilDate).weekday.daysSince firstWeekday

theorem offset_lt (date : CivilDate) (firstWeekday : Weekday) : date.offset firstWeekday < 7 :=
  Weekday.daysSince_lt _ _

/-- A week begins where the days since the start of the first week fill whole weeks. -/
theorem weekday_eq_iff (date : CivilDate) (firstWeekday : Weekday) (days : Nat) :
    ({ date with day := days + 1 } : CivilDate).weekday = firstWeekday ↔
      (days + date.offset firstWeekday) % 7 = 0 := by
  have moved : dayNumber date.year date.month (days + 1) =
      dayNumber date.year date.month 1 + days := by
    simp only [dayNumber]
    omega
  rw [← Weekday.daysSince_eq_zero, weekday, moved, Weekday.daysSince_ofDay_add]
  rfl

theorem weekStarts_eq (ordered : first ≤ last) :
    date.weekStarts firstWeekday (first + 2) (last + 1) =
      (last + date.offset firstWeekday) / 7 - (first + date.offset firstWeekday) / 7 := by
  induction ordered with
  | refl =>
      have none : daysBetween (first + 2) (first + 1) = [] := by
        rw [daysBetween, Nat.sub_self, List.range'_zero]
      rw [weekStarts, none, List.countP_nil, Nat.sub_self]
  | @step last reached ih =>
      have more : daysBetween (first + 2) (last + 1 + 1) =
          daysBetween (first + 2) (last + 1) ++ [last + 1 + 1] := by
        obtain ⟨count, rfl⟩ := Nat.exists_eq_add_of_le reached
        have size : first + count + 1 + 1 + 1 - (first + 2) = count + 1 := by omega
        have fewer : first + count + 1 + 1 - (first + 2) = count := by omega
        rw [daysBetween, daysBetween, size, fewer, List.range'_1_concat]
        congr 2
        omega
      have starts := date.weekday_eq_iff firstWeekday (last + 1)
      have le : first ≤ last := reached
      rw [weekStarts] at ih
      rw [weekStarts, more, List.countP_append, ih, List.countP_singleton]
      simp only [beq_iff_eq, starts]
      split <;> omega

theorem IsDate.weekStarts_add (isDate : date.IsDate) :
    date.weekStarts firstWeekday 2 date.day +
        date.weekStarts firstWeekday (date.day + 1) date.lastDay =
      date.weekStarts firstWeekday 2 date.lastDay := by
  obtain ⟨positive, inside⟩ := isDate.day
  obtain ⟨days, isDay⟩ := Nat.exists_eq_add_of_le' positive
  obtain ⟨others, isLast⟩ := Nat.exists_eq_add_of_le inside
  have last : date.lastDay = days + others + 1 := by
    rw [lastDay]
    omega
  rw [last, isDay, weekStarts_eq (Nat.zero_le days), weekStarts_eq (Nat.zero_le _),
    weekStarts_eq (Nat.le_add_right days others)]
  omega

theorem le_monthLength {year month : Nat} (first : 1 ≤ month) (last : month ≤ 12) :
    28 ≤ monthLength year month := by
  have inside : month - 1 < (monthLengths year).length := by
    simp only [monthLengths, List.length_cons, List.length_nil]
    omega
  have member := List.getElem_mem inside
  rw [monthLength, List.getD_eq_getElem?_getD, List.getElem?_eq_getElem inside, Option.getD_some]
  generalize (monthLengths year)[month - 1] = length at member ⊢
  simp only [monthLengths, List.mem_cons, List.not_mem_nil, or_false] at member
  split at member <;> omega

theorem ofDay_of_dayNumber {day : Nat} (isDate : date.IsDate)
    (number : dayNumber date.year date.month date.day = day) : ofDay day = date := by
  rw [← number]
  exact isDate.ofDay_dayNumber

/-- The day after another one lies in the same month, or it is the first of the next one. -/
theorem ofDay_succ (day : Nat) :
    (ofDay (day + 1) = { ofDay day with day := (ofDay day).day + 1 } ∧
        (ofDay day).day < (ofDay day).lastDay) ∨
      (ofDay (day + 1)).day = 1 ∧ (ofDay day).day = (ofDay day).lastDay := by
  have number := dayNumber_ofDay day
  obtain ⟨positive, ⟨firstMonth, lastMonth⟩, firstDay, inside⟩ := isDate_ofDay day
  generalize ofDay day = date at *
  obtain ⟨year, month, ofMonth⟩ := date
  simp only [lastDay, dayNumber] at *
  by_cases last : ofMonth < monthLength year month
  · have next : (⟨year, month, ofMonth + 1⟩ : CivilDate).IsDate :=
      ⟨positive, ⟨firstMonth, lastMonth⟩, Nat.le_add_left 1 ofMonth, last⟩
    refine .inl ⟨ofDay_of_dayNumber next ?_, last⟩
    simp only [dayNumber]
    omega
  · have isLast : ofMonth = monthLength year month := by omega
    have nextMonth := @daysBeforeMonth_succ year month firstMonth lastMonth
    refine .inr ⟨?_, isLast⟩
    by_cases december : month = 12
    · subst december
      have next : (⟨year + 1, 1, 1⟩ : CivilDate).IsDate :=
        ⟨Nat.le_add_left 1 year, ⟨Nat.le_refl 1, by simp⟩, Nat.le_refl 1,
          Nat.le_trans (by simp) (le_monthLength (Nat.le_refl 1) (by simp))⟩
      have nextYear := daysBeforeYear_succ positive
      rw [daysBeforeMonth_thirteen] at nextMonth
      have isNext : ofDay (day + 1) = ⟨year + 1, 1, 1⟩ := by
        refine ofDay_of_dayNumber next ?_
        simp only [dayNumber, nextYear, daysBeforeMonth, Nat.sub_self, List.take_zero, totalDays]
        omega
      rw [isNext]
    · have next : (⟨year, month + 1, 1⟩ : CivilDate).IsDate :=
        ⟨positive, ⟨Nat.le_add_left 1 month, by simp only; omega⟩, Nat.le_refl 1,
          Nat.le_trans (by simp) (le_monthLength (Nat.le_add_left 1 month) (by simp only; omega))⟩
      have isNext : ofDay (day + 1) = ⟨year, month + 1, 1⟩ := by
        refine ofDay_of_dayNumber next ?_
        simp only [dayNumber, nextMonth]
        omega
      rw [isNext]

end CivilDate

namespace WallTime

variable {time later : WallTime}

theorem weekday_date (time : WallTime) : time.date.weekday = time.weekday :=
  congrArg Weekday.ofDay (dayNumber_ofDay time.day)

theorem firstWeekOffset_eq (time : WallTime) (firstWeekday : Weekday) :
    time.firstWeekOffset firstWeekday = time.date.offset firstWeekday := by
  have whole := dayNumber_ofDay time.day
  have first : time.day - (time.date.day - 1) = dayNumber time.date.year time.date.month 1 := by
    simp only [dayNumber, date] at whole ⊢
    omega
  rw [firstWeekOffset, first]
  rfl

/-- The week of the month counts the weeks that have begun since its first day. -/
theorem weekOfMonth_eq (time : WallTime) (firstWeekday : Weekday) :
    time.weekOfMonth firstWeekday = time.date.weekStarts firstWeekday 2 time.date.day + 1 := by
  have bound := time.date.offset_lt firstWeekday
  obtain ⟨days, isDay⟩ := Nat.exists_eq_add_of_le' (CivilDate.isDate_ofDay time.day).day.1
  change time.date.day = days + 1 at isDay
  rw [weekOfMonth, firstWeekOffset_eq, isDay, CivilDate.weekStarts_eq (Nat.zero_le days)]
  omega

theorem weeksInMonth_eq (time : WallTime) (firstWeekday : Weekday) :
    time.weeksInMonth firstWeekday =
      time.date.weekStarts firstWeekday 2 time.date.lastDay + 1 := by
  have bound := time.date.offset_lt firstWeekday
  have day := (CivilDate.isDate_ofDay time.day).day
  obtain ⟨days, isLast⟩ := Nat.exists_eq_add_of_le' (Nat.le_trans day.1 day.2)
  change time.date.lastDay = days + 1 at isLast
  have length : time.daysInMonth = time.date.lastDay := rfl
  rw [weeksInMonth, length, firstWeekOffset_eq, isLast, CivilDate.weekStarts_eq (Nat.zero_le days)]
  omega

/-- From one day to the next the facts about its week and month stay the same unless a week or a month
begins. -/
theorem sameWeek_iff (firstWeekday : Weekday) (next : later.day = time.day + 1) :
    (later.weekOfMonth firstWeekday = time.weekOfMonth firstWeekday ∧
        later.weeksInMonth firstWeekday = time.weeksInMonth firstWeekday ∧
        later.daysInMonth = time.daysInMonth) ↔
      ¬(later.weekday = firstWeekday ∨ later.date.day = 1) := by
  have isDate := CivilDate.isDate_ofDay time.day
  have laterDate : later.date = CivilDate.ofDay (time.day + 1) := congrArg CivilDate.ofDay next
  rw [← weekday_date]
  simp only [weekOfMonth, weeksInMonth, daysInMonth, firstWeekOffset_eq, laterDate]
  simp only [date] at isDate ⊢
  obtain ⟨days, isDay⟩ := Nat.exists_eq_add_of_le' isDate.day.1
  rcases CivilDate.ofDay_succ time.day with ⟨isNext, _⟩ | ⟨isFirst, isLast⟩
  · have starts := (CivilDate.ofDay time.day).weekday_eq_iff firstWeekday (days + 1)
    have offset : CivilDate.offset { CivilDate.ofDay time.day with day := days + 1 + 1 } firstWeekday =
        (CivilDate.ofDay time.day).offset firstWeekday := rfl
    rw [isNext, isDay]
    simp only [offset, starts, and_true]
    omega
  · have long := @CivilDate.le_monthLength (CivilDate.ofDay time.day).year _ isDate.month.1
      isDate.month.2
    have bound := (CivilDate.ofDay (time.day + 1)).offset_lt firstWeekday
    rw [CivilDate.lastDay] at isLast
    rw [isFirst]
    refine iff_of_false (fun same => ?_) fun notFirst => notFirst (.inr rfl)
    have sameWeek := same.1
    omega

end WallTime

end Recurrence
