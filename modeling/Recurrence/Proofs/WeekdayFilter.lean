import Recurrence.WeekdayFilter
import Recurrence.Proofs.Calendar.Weeks

namespace Recurrence

/-! What a weekday filter accepts.

The filter computes the week of the month and compares it with an ordinal.  Said of the calendar alone, an
ordinal counts the weeks that begin inside the month: those up to the date, or those behind it when the
ordinal is negative (`CivilDate.InWeek`).  The filter accepts by that count: `WeekdayFilter.matches_iff`.
-/

/-- Whether a date lies in the week of its month that an ordinal names.  The first week of the month has
begun before its second day, so one week less begins on the days counted. -/
def CivilDate.InWeek (date : CivilDate) (firstWeekday : Weekday) (ordinal : Int) : Prop :=
  0 < ordinal ∧ (date.weekStarts firstWeekday 2 date.day : Int) = ordinal - 1 ∨
    ordinal < 0 ∧ (date.weekStarts firstWeekday (date.day + 1) date.lastDay : Int) = -ordinal - 1

/-- What an entry asks of a date; `ordinals` says whether its ordinal counts. -/
structure DayEntry.Admits (entry : DayEntry) (ordinals : Bool) (firstWeekday : Weekday)
    (date : CivilDate) : Prop where
  weekday_eq : entry.weekday = date.weekday
  inWeek : ordinals = true → ∀ ordinal ∈ entry.ordinal, date.InWeek firstWeekday ordinal

namespace WallTime

/-- Counted from the end of the month, the week of a time tells the weeks that begin behind its day. -/
theorem weeksInMonth_sub_weekOfMonth (time : WallTime) (firstWeekday : Weekday) :
    (time.weeksInMonth firstWeekday : Int) - time.weekOfMonth firstWeekday =
      time.date.weekStarts firstWeekday (time.date.day + 1) time.date.lastDay := by
  have isDate : time.date.IsDate := CivilDate.isDate_ofDay time.day
  rw [weeksInMonth_eq, weekOfMonth_eq, ← isDate.weekStarts_add]
  omega

theorem inWeek_iff (time : WallTime) (firstWeekday : Weekday) (ordinal : Int) :
    time.date.InWeek firstWeekday ordinal ↔
      0 < ordinal ∧ ordinal = time.weekOfMonth firstWeekday ∨
        ordinal < 0 ∧
          ordinal = -((time.weeksInMonth firstWeekday : Int) - time.weekOfMonth firstWeekday + 1) := by
  rw [CivilDate.InWeek, weeksInMonth_sub_weekOfMonth, weekOfMonth_eq]
  omega

end WallTime

namespace WeekdayFilter

theorem entryAccepts_iff (ordinals : Bool) (entry : DayEntry) (time : WallTime)
    (firstWeekday : Weekday) :
    entryAccepts ordinals entry time.weekday (time.weekOfMonth firstWeekday)
        (time.weeksInMonth firstWeekday) = true ↔
      entry.Admits ordinals firstWeekday time.date := by
  have asked := time.inWeek_iff firstWeekday
  rw [entryAccepts, Bool.and_eq_true, beq_iff_eq, ← time.weekday_date]
  constructor
  · intro accepted
    obtain ⟨weekday_eq, met⟩ := accepted
    refine ⟨weekday_eq, fun counts ordinal isOrdinal => (asked ordinal).mpr ?_⟩
    rw [Option.mem_def.mp isOrdinal] at met
    simpa only [counts, Bool.not_true, Bool.false_or, Bool.or_eq_true, Bool.and_eq_true,
      decide_eq_true_eq, beq_iff_eq] using met
  · intro admits
    obtain ⟨weekday_eq, inWeek⟩ := admits
    refine ⟨weekday_eq, ?_⟩
    cases isOrdinal : entry.ordinal with
    | none => rfl
    | some ordinal =>
        cases counts : ordinals with
        | false => rfl
        | true =>
            have met := (asked ordinal).mp (inWeek counts ordinal isOrdinal)
            simpa only [Bool.not_true, Bool.false_or, Bool.or_eq_true, Bool.and_eq_true,
              decide_eq_true_eq, beq_iff_eq] using met

theorem accepts_iff (filter : WeekdayFilter) (firstWeekday : Weekday) (time : WallTime) :
    filter.accepts firstWeekday time = true ↔
      ∃ entry ∈ filter.entries, entry.Admits filter.ordinals firstWeekday time.date := by
  simp only [accepts, List.any_eq_true, entryAccepts_iff]

/-- A filter judges every date that the calendar can show, by the date shown, and no other. -/
theorem matches_iff {filter : WeekdayFilter} {calendar : Calendar} {date : DateTime} {accepted : Bool} :
    filter.matches calendar date = some accepted ↔
      ∃ shown, calendar.localize date = some shown ∧
        (accepted = true ↔ ∃ entry ∈ filter.entries,
          entry.Admits filter.ordinals calendar.firstWeekday shown.wall.date) := by
  simp only [WeekdayFilter.matches, Option.map_eq_some_iff, ← accepts_iff]
  refine exists_congr fun shown => and_congr_right fun _ => ?_
  rw [Bool.coe_iff_coe]
  exact eq_comm

end WeekdayFilter

end Recurrence
