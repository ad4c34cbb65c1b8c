import Recurrence.Proofs.Calendar.Weeks
import Recurrence.Proofs.Weekly.Meaning

namespace Recurrence

/-! The active days of a weekly rule, week by week.

From one of its days on a week has `weekRest` days, which are all active or all inactive, and the next
active week begins at `nextWeek`.  `selection_week` cuts the selected dates at the end of a week.
-/

namespace WeeklyWalk

/-- The number of days of a week from one of them on. -/
def weekRest (firstWeekday : Weekday) (start : Moment) (days : Nat) : Nat :=
  7 - (days + start.wall.weekday.daysSince firstWeekday) % 7

/-- The first day of the active week after an active one. -/
def nextWeek (interval : Int) (firstWeekday : Weekday) (start : Moment) (days : Nat) : Nat :=
  days + 7 * interval.toNat - (days + start.wall.weekday.daysSince firstWeekday) % 7

variable {rule : Rule} {firstWeekday : Weekday} {start date : Moment} {interval : Int}
  {first days : Nat}

theorem weekRest_pos (firstWeekday : Weekday) (start : Moment) (days : Nat) :
    0 < weekRest firstWeekday start days := by
  unfold weekRest
  omega

theorem weekRest_le_nextWeek (positive : 1 ≤ interval) :
    days + weekRest firstWeekday start days ≤ nextWeek interval firstWeekday start days := by
  unfold weekRest nextWeek
  omega

theorem weekNumber_nextWeek (positive : 1 ≤ interval) :
    (weekNumber firstWeekday start (nextWeek interval firstWeekday start days) : Int) =
      weekNumber firstWeekday start days + interval := by
  unfold weekNumber nextWeek
  generalize start.wall.weekday.daysSince firstWeekday = offset
  omega

theorem isActive_nextWeek (positive : 1 ≤ interval)
    (active : isActive interval firstWeekday start days = true) :
    isActive interval firstWeekday start (nextWeek interval firstWeekday start days) = true := by
  simp only [isActive, decide_eq_true_eq] at active ⊢
  rw [weekNumber_nextWeek positive]
  exact Int.dvd_add active (Int.dvd_refl _)

theorem isActive_of_week {between : Nat} (active : isActive interval firstWeekday start days = true)
    (after : days ≤ between) (before : between < days + weekRest firstWeekday start days) :
    isActive interval firstWeekday start between = true := by
  have sameWeek : weekNumber firstWeekday start between = weekNumber firstWeekday start days := by
    unfold weekRest at before
    unfold weekNumber
    omega
  rw [isActive, sameWeek]
  exact active

theorem isActive_between_weeks {between : Nat}
    (active : isActive interval firstWeekday start days = true)
    (after : days + weekRest firstWeekday start days ≤ between)
    (before : between < nextWeek interval firstWeekday start days) :
    isActive interval firstWeekday start between = false := by
  have more : weekNumber firstWeekday start days < weekNumber firstWeekday start between := by
    unfold weekRest at after
    unfold weekNumber
    omega
  have less : (weekNumber firstWeekday start between : Int) <
      weekNumber firstWeekday start days + interval := by
    unfold nextWeek at before
    unfold weekNumber
    omega
  simp only [isActive, decide_eq_true_eq, decide_eq_false_iff_not] at active ⊢
  intro divides
  have multiple := Int.dvd_sub divides active
  have least := Int.le_of_dvd (by omega) multiple
  omega

theorem candidate_isSome :
    (candidate start days).isSome = true ↔ start.wall.day + days < dayCount := by
  have bound := start.wall.micros_lt
  simp only [candidate, WallTime.addDays, WallTime.addMicros, Option.isSome_map,
    WallTime.ofMicros?_isSome, WallTime.day, microsPerDay, dayCount, calendarMicros] at bound ⊢
  omega

theorem candidate_eq_none : candidate start days = none ↔ dayCount ≤ start.wall.day + days := by
  rw [← Option.not_isSome_iff_eq_none, candidate_isSome, Nat.not_lt]

/-- No date is selected behind the last day of the calendar. -/
theorem selection_behind {first last : Nat} (behind : dayCount ≤ start.wall.day + first) :
    selection rule firstWeekday start first last = [] := by
  refine List.filterMap_eq_nil_iff.2 fun between member => ?_
  have after := (List.mem_range'_1.1 member).1
  cases found : selected rule firstWeekday start between with
  | none => rfl
  | some date =>
      have inside := candidate_isSome.1
        (Option.isSome_iff_exists.2 ⟨date, (selected_eq_some.1 found).1⟩)
      omega

theorem selection_upTo {last : Nat} (whole : dayCount ≤ last) :
    selection rule firstWeekday start days last =
      selection rule firstWeekday start days dayCount := by
  by_cases inside : days ≤ dayCount
  · have noMore : selection rule firstWeekday start dayCount last = [] :=
      selection_behind (by omega)
    rw [selection_append inside whole, noMore, List.append_nil]
  · rw [selection_behind (by omega), selection_behind (by omega)]

/-- The selected dates from a day of an active week on are those up to the end of the week and those
from the next active week on. -/
theorem selection_week (positive : 1 ≤ rule.interval)
    (active : isActive rule.interval firstWeekday start first = true)
    (inWeek : days ≤ first + weekRest firstWeekday start first) :
    selection rule firstWeekday start days dayCount =
      selection rule firstWeekday start days (first + weekRest firstWeekday start first) ++
        selection rule firstWeekday start (nextWeek rule.interval firstWeekday start first)
          dayCount := by
  have forward : first + weekRest firstWeekday start first ≤
      nextWeek rule.interval firstWeekday start first := weekRest_le_nextWeek positive
  have between : selection rule firstWeekday start (first + weekRest firstWeekday start first)
      (nextWeek rule.interval firstWeekday start first) = [] :=
    selection_eq_nil fun day after before => isActive_between_weeks active after before
  -- The next week may begin behind the calendar, so all dates are taken up to a day behind both.
  have whole : dayCount ≤ dayCount + nextWeek rule.interval firstWeekday start first :=
    Nat.le_add_right _ _
  have late := Nat.le_add_left (nextWeek rule.interval firstWeekday start first) dayCount
  calc
    selection rule firstWeekday start days dayCount =
        selection rule firstWeekday start days
          (dayCount + nextWeek rule.interval firstWeekday start first) :=
      (selection_upTo whole).symm
    _ = selection rule firstWeekday start days (first + weekRest firstWeekday start first) ++
        selection rule firstWeekday start (nextWeek rule.interval firstWeekday start first)
          (dayCount + nextWeek rule.interval firstWeekday start first) := by
      rw [selection_append inWeek (Nat.le_trans forward late), selection_append forward late, between,
        List.nil_append]
    _ = _ := by rw [selection_upTo whole]

end WeeklyWalk

end Recurrence
