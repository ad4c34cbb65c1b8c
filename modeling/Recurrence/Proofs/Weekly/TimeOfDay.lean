import Mathlib.Control.Monad.Basic
import Recurrence.Proofs.Weekly.Walk
import Recurrence.Zone.Americas

namespace Recurrence

/-! Which time of day the dates of a weekly generator show.

A step of the walk goes on from what is shown of the date at hand.  Where a zone that looks times up has
skipped it, this is ahead of the date by the length of the gap, and the walk never loses this lead again:
`WeeklyWalk.drift` sums the leads up, and a date keeps the time of the start exactly if the drift up to it is a
number of whole days.
-/

namespace WeeklyWalk

/-- By how much what is shown of the dates of a list is ahead of them together. -/
def drift (zone : Zone) : List Moment → Int
  | [] => 0
  | date :: rest => zone.lead date + drift zone rest

variable {course : Course} {start date : Moment} {passed : List Moment}

theorem drift_append (zone : Zone) (passed : List Moment) (date : Moment) :
    drift zone (passed ++ [date]) = drift zone passed + zone.lead date := by
  induction passed with
  | nil => exact Int.add_comm _ _
  | cons first rest ih =>
      rw [List.cons_append, drift, drift, ih]
      omega

theorem Walked.fits_of_mem {other : Moment}
    (walked : Walked course start passed date) (fits : course.calendar.Fits start)
    (member : other ∈ passed) : course.calendar.Fits other := by
  induction walked with
  | nil => contradiction
  | step before _ ih =>
      rcases List.mem_append.1 member with earlier | last
      · exact ih earlier
      · rw [List.mem_singleton.1 last]
        exact before.fits fits

theorem Walked.micros_eq (walked : Walked course start passed date) :
    ∃ days : Int, (date.wall.micros : Int) =
      start.wall.micros + drift course.calendar.zone passed + days * 86400000000 := by
  induction walked with
  | nil => exact ⟨0, by simp [drift]⟩
  | @step passed date after before moved ih =>
      obtain ⟨days, sum⟩ := ih
      obtain ⟨more, _, ahead, _⟩ := shift_of_nextDate moved
      refine ⟨days + more, ?_⟩
      rw [drift_append, Zone.lead]
      omega

theorem Walked.microOfDay_eq_iff (walked : Walked course start passed date) :
    date.wall.microOfDay = start.wall.microOfDay ↔
      (86400000000 : Int) ∣ drift course.calendar.zone passed := by
  obtain ⟨days, sum⟩ := walked.micros_eq
  simp only [WallTime.microOfDay, microsPerDay]
  omega

/-- The dates that are answered show the time of the start exactly if the leads of the dates walked
over before them make whole days.  Only a time that is shown behind a gap has a lead, of at most one
day. -/
theorem answers_keep_time_iff {rule : Rule} {start : DateTime} {calendar : Calendar}
    {shown : Moment} {generator : WeeklyWalk} (coherent : start.Coherent)
    (shows : calendar.localize start = some shown)
    (built : build rule start calendar = .ok generator) (calls : Nat) :
    ((∀ date, Answer.date date ∈ generator.answers calls →
        date.wall.microOfDay = shown.wall.microOfDay) ↔
      ∀ date passed, Answer.date date ∈ generator.answers calls →
        Walked generator.course shown passed date →
          (86400000000 : Int) ∣ drift calendar.zone passed) ∧
    ∀ date passed, Walked generator.course shown passed date → ∀ other ∈ passed,
      (calendar.zone.displaces other.wall = false → calendar.zone.lead other = 0) ∧
        (calendar.zone.displaces other.wall = true →
          0 < calendar.zone.lead other ∧ calendar.zone.lead other ≤ 86400000000) := by
  have begins := begins_of_build built
  have fits := Calendar.fits_of_shown coherent shows
  have current : generator.cursor.current = shown :=
    Option.some.inj (begins.shows_start.symm.trans shows)
  rw [← begins.calendar_eq] at fits ⊢
  refine ⟨⟨fun keep date passed answered walked => ?_, fun whole date answered => ?_⟩, ?_⟩
  · exact walked.microOfDay_eq_iff.1 (keep date answered)
  · obtain ⟨passed, walked⟩ := walked_of_mem_answers answered
    rw [current] at walked
    exact walked.microOfDay_eq_iff.2 (whole date passed answered walked)
  · intro date passed walked other member
    have otherFits := walked.fits_of_mem fits member
    exact ⟨otherFits.lead_eq, otherFits.lead_pos⟩

/-- Saturdays and Mondays at 02:30 from 9 March 2024 on.  New York skips 02:30 on the Sunday between. -/
def acrossSunday : Rule where
  frequency := .weekly
  weekdays := [.every .saturday, .every .monday]

def saturdayStart : Moment where
  wall := ⟨63845548200000000, by decide⟩
  offset := -18000000000
  zone := .varying Zone.NewYork.history .reader

def acrossSundayWalk : WeeklyWalk where
  course := ⟨{ zone := saturdayStart.zone }, 1, .never, none⟩
  cursor := ⟨saturdayStart, 0, false⟩
  filter := ⟨acrossSunday.weekdays, false⟩

theorem localize_saturdayStart :
    acrossSundayWalk.course.calendar.localize (.naive saturdayStart.wall) = some saturdayStart := by
  decide +kernel

theorem build_acrossSunday :
    build acrossSunday (.naive saturdayStart.wall) acrossSundayWalk.course.calendar =
      .ok acrossSundayWalk := by
  decide +kernel

theorem acrossSundayWalk_keeps_time_iff :
    ((∀ date, Answer.date date ∈ acrossSundayWalk.answers 2 →
        date.wall.microOfDay = saturdayStart.wall.microOfDay) ↔
      ∀ date passed, Answer.date date ∈ acrossSundayWalk.answers 2 →
        Walked acrossSundayWalk.course saturdayStart passed date →
          (86400000000 : Int) ∣ drift saturdayStart.zone passed) ∧
    ∀ date passed, Walked acrossSundayWalk.course saturdayStart passed date →
      ∀ other ∈ passed,
        (saturdayStart.zone.displaces other.wall = false → saturdayStart.zone.lead other = 0) ∧
          (saturdayStart.zone.displaces other.wall = true →
            0 < saturdayStart.zone.lead other ∧ saturdayStart.zone.lead other ≤ 86400000000) :=
  answers_keep_time_iff (DateTime.coherent_naive _) localize_saturdayStart
    build_acrossSunday 2

/-- The time of the start is not always kept: the walk stands on the skipped time of the Sunday and
goes on to 03:30 on the Monday. -/
theorem not_forall_answers_keep_time :
    ¬ ∀ (rule : Rule) (start : DateTime) (calendar : Calendar) (shown : Moment)
      (generator : WeeklyWalk) (calls : Nat), rule.Valid → start.Coherent →
        calendar.localize start = some shown → build rule start calendar = .ok generator →
          ∀ date, Answer.date date ∈ generator.answers calls →
            date.wall.microOfDay = shown.wall.microOfDay := by
  intro keep
  have kept := keep acrossSunday (.naive saturdayStart.wall) acrossSundayWalk.course.calendar
    saturdayStart acrossSundayWalk 2 (by decide) (DateTime.coherent_naive _) localize_saturdayStart
    build_acrossSunday ⟨⟨63845724600000000, by decide⟩, -14400000000, saturdayStart.zone⟩
    (by decide +kernel)
  exact absurd kept (by decide)

end WeeklyWalk

end Recurrence
