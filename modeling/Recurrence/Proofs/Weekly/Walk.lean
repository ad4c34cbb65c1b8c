import Recurrence.Proofs.Calendar
import Recurrence.Proofs.Generator

namespace Recurrence

/-! Where the walk of a weekly generator leads.

Every step of a walk shows the date at hand and moves on by whole days from what is shown
(`WeeklyWalk.eq_of_nextDate`).  `WeeklyWalk.Walked` lists the dates that were walked over, and the
dates that a generator gives out are among those that it walks over.
-/

namespace WeeklyWalk

variable {course : Course} {filter : WeekdayFilter} {date after : Moment}

/-- A step goes on by one day from what is shown of the date, and by whole weeks more at the end of an
active week. -/
theorem shift_of_nextDate (moved : nextDate course date = .ok after) :
    ∃ days : Int, (days = 1 ∨ days = 1 + (course.interval - 1) * 7) ∧
      (after.wall.micros : Int) =
        course.calendar.zone.face date + days * 86400000000 ∧
      course.calendar.zone.localize after.wall = some after := by
  unfold nextDate at moved
  split at moved
  · contradiction
  · next last _ =>
      have steps : (if last = true then 1 + (course.interval - 1) * 7 else 1) = 1 ∨
          (if last = true then 1 + (course.interval - 1) * 7 else 1) =
            1 + (course.interval - 1) * 7 := by
        split
        · exact .inr rfl
        · exact .inl rfl
      simp only at moved
      generalize (if last = true then 1 + (course.interval - 1) * 7 else 1) = days at *
      split at moved
      · contradiction
      · split at moved
        · contradiction
        · next next shifted =>
            cases moved
            simp only [Calendar.addDays, Option.bind_eq_bind, Option.bind_eq_some_iff] at shifted
            obtain ⟨shown, shows, wall, walls, read⟩ := shifted
            have wallIs := Zone.wall_of_localize read
            subst wallIs
            refine ⟨days, steps, ?_, read⟩
            rw [WallTime.micros_of_addDays walls, Calendar.face_of_shown shows]

/-- A step goes on by at least a day from what is shown of the date. -/
theorem eq_of_nextDate (positive : 1 ≤ course.interval) (moved : nextDate course date = .ok after) :
    ∃ days : Int, 1 ≤ days ∧
      (after.wall.micros : Int) =
        course.calendar.zone.face date + days * 86400000000 ∧
      course.calendar.zone.localize after.wall = some after := by
  obtain ⟨days, steps, ahead, read⟩ := shift_of_nextDate moved
  exact ⟨days, by omega, ahead, read⟩

inductive Walked (course : Course) (start : Moment) : List Moment → Moment → Prop
  | nil : Walked course start [] start
  | step {passed : List Moment} {date after : Moment} (before : Walked course start passed date)
      (moved : nextDate course date = .ok after) : Walked course start (passed ++ [date]) after

theorem Walked.trans {start : Moment} {passed later : List Moment}
    (first : Walked course start passed date) (second : Walked course date later after) :
    Walked course start (passed ++ later) after := by
  induction second with
  | nil => simpa using first
  | step _ moved ih =>
      rw [← List.append_assoc]
      exact ih.step moved

theorem Walked.fits {start : Moment} {passed : List Moment}
    (walked : Walked course start passed date) (fits : course.calendar.Fits start) :
    course.calendar.Fits date := by
  induction walked with
  | nil => exact fits
  | step _ moved ih =>
      obtain ⟨_, _, _, read⟩ := shift_of_nextDate moved
      exact Calendar.fits_of_localize read

theorem Walked.zone_eq {start : Moment} {passed : List Moment}
    (walked : Walked course start passed date) (begins : start.zone = course.calendar.zone) :
    date.zone = course.calendar.zone := by
  cases walked with
  | nil => exact begins
  | step _ moved =>
      obtain ⟨_, _, _, read⟩ := shift_of_nextDate moved
      exact Zone.zone_of_localizeWith read

/-- Every date that a walk leads to after a date is at least a day ahead of what is shown of that
date. -/
theorem Walked.face_add_day_le {passed : List Moment} {next later : Moment}
    (positive : 1 ≤ course.interval) (moved : nextDate course date = .ok next)
    (walked : Walked course next passed later) :
    course.calendar.zone.face date + 86400000000 ≤ later.wall.micros ∧
      course.calendar.zone.localize later.wall = some later := by
  induction walked with
  | nil =>
      obtain ⟨days, forward, ahead, read⟩ := eq_of_nextDate positive moved
      exact ⟨by omega, read⟩
  | step _ onward ih =>
      have kept := (Calendar.fits_of_localize ih.2).wall_le_face
      obtain ⟨days, forward, ahead, read⟩ := eq_of_nextDate positive onward
      exact ⟨by omega, read⟩

theorem walk_date {days : Nat} {cursor moved : Cursor}
    (answered : walk course filter days cursor = (.date date, moved)) :
    ∃ passed, Walked course cursor.current passed date ∧
      nextDate course date = .ok moved.current := by
  induction days generalizing cursor with
  | zero => simp [walk] at answered
  | succ days ih =>
      unfold walk at answered
      split at answered
      · simp at answered
      · split at answered
        · simp at answered
        · next after next =>
            split at answered
            · simp at answered
            · cases answered
              exact ⟨[], .nil, next⟩
            · obtain ⟨passed, walked, behind⟩ := ih answered
              exact ⟨[cursor.current] ++ passed, (Walked.nil.step next).trans walked, behind⟩

theorem advance_of_exhausted {generator : WeeklyWalk}
    (exhausted : generator.cursor.exhausted = true) : generator.advance = (.finished, generator) := by
  rw [advance, if_pos exhausted]

/-- A generator that is not exhausted walks on from its cursor. -/
theorem advance_eq_walk {generator : WeeklyWalk} (exhausted : generator.cursor.exhausted = false) :
    generator.advance =
      ((walk generator.course generator.filter (dayCount + 1) generator.cursor).1,
        { generator with
          cursor := (walk generator.course generator.filter (dayCount + 1) generator.cursor).2 }) := by
  simp only [advance, exhausted, Bool.false_eq_true, if_false]

theorem advance_date {generator later : WeeklyWalk}
    (answered : generator.advance = (.date date, later)) :
    later.course = generator.course ∧ ∃ passed,
      Walked generator.course generator.cursor.current passed date ∧
        nextDate generator.course date = .ok later.cursor.current := by
  unfold advance at answered
  split at answered
  · simp at answered
  · simp only [Prod.mk.injEq] at answered
    obtain ⟨isDate, rfl⟩ := answered
    exact ⟨rfl, walk_date (Prod.ext isDate rfl)⟩

theorem begins_of_build {rule : Rule} {start : DateTime} {calendar : Calendar}
    {generator : WeeklyWalk} (built : build rule start calendar = .ok generator) :
    Course.Begins rule start calendar generator.course generator.cursor := by
  unfold build at built
  split at built
  · contradiction
  · split at built
    · contradiction
    · next course cursor begun =>
        split at built
        · contradiction
        · cases built
          exact Course.begins_of_begin? begun

theorem walked_of_walk (course : Course) (filter : WeekdayFilter) (days : Nat) (cursor : Cursor) :
    ∃ passed, Walked course cursor.current passed (walk course filter days cursor).2.current := by
  induction days generalizing cursor with
  | zero => exact ⟨[], .nil⟩
  | succ days ih =>
      unfold walk
      split
      · exact ⟨[], .nil⟩
      · split
        · exact ⟨[], .nil⟩
        · next after next =>
            have moved := Walked.nil.step next
            split
            · exact ⟨_, moved⟩
            · exact ⟨_, moved⟩
            · obtain ⟨passed, walked⟩ := ih { cursor with current := after }
              exact ⟨_, moved.trans walked⟩

theorem walked_of_advance (generator : WeeklyWalk) :
    generator.advance.2.course = generator.course ∧ ∃ passed,
      Walked generator.course generator.cursor.current passed
        generator.advance.2.cursor.current := by
  unfold advance
  split
  · exact ⟨rfl, [], .nil⟩
  · exact ⟨rfl, walked_of_walk _ _ _ _⟩

def answers : Nat → WeeklyWalk → List Answer
  | 0, _ => []
  | calls + 1, generator => generator.advance.1 :: answers calls generator.advance.2

theorem walked_of_mem_answers {generator : WeeklyWalk} {calls : Nat}
    (answered : Answer.date date ∈ answers calls generator) :
    ∃ passed, Walked generator.course generator.cursor.current passed date := by
  induction calls generalizing generator with
  | zero => simp [answers] at answered
  | succ calls ih =>
      rcases List.mem_cons.1 answered with now | later
      · obtain ⟨_, passed, walked, _⟩ := advance_date (Prod.ext now.symm rfl)
        exact ⟨passed, walked⟩
      · obtain ⟨same, _, before⟩ := walked_of_advance generator
        obtain ⟨_, walked⟩ := ih later
        rw [same] at walked
        exact ⟨_, before.trans walked⟩

end WeeklyWalk

end Recurrence
