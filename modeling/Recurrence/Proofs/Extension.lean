import Recurrence.Proofs.Range
import Recurrence.Proofs.Weekly.Account

namespace Recurrence

/-! What a greater limit or a later bound adds to a list of occurrences.

Dates are taken one after another until there are enough, and a limit or a bound only decides where that
stops (`Generator.Takes.grows`).  So a list grows at its end alone, and it never gets longer than the
number of dates that its rule wants: `Expansion.occurrences_grow`.

Bounds are compared as dates are (`Moment.isBefore`): by their instants in every zone that is looked up by
name or has one offset (`Expansion.widens_iff_le`), and in a plain zone, whose offset varies, by what its clocks
show.  There, of an hour that is shown twice, the second time is not later than the first.
-/

namespace Stream

variable {stream later : Stream} {time : WallTime} {left : Int}

theorem remaining_enter (stream : Stream) (period : Period) (times : List Nat) :
    (stream.enter period times).remaining = stream.remaining := by
  unfold enter
  split <;> rfl

theorem remaining_ofPlan (plan : Plan) : (ofPlan plan).remaining = plan.count := by
  rw [ofPlan, remaining_enter]

theorem give_remaining {found : WallTime} {rest : List DayTimes} (isLeft : stream.remaining = some left)
    (given : stream.give found rest = (.time time, later)) :
    0 < left ∧ later.remaining = some (left - 1) := by
  rw [give, isLeft] at given
  simp only at given
  split at given
  · cases given
  · next positive =>
      cases given
      exact ⟨Int.not_le.mp positive, rfl⟩

theorem nextWithin_remaining {periods : Nat} (isLeft : stream.remaining = some left)
    (given : nextWithin periods stream = (.time time, later)) :
    0 < left ∧ later.remaining = some (left - 1) := by
  induction periods generalizing stream with
  | zero => cases given
  | succ periods ih =>
      unfold nextWithin at given
      split at given
      · cases given
      · split at given
        · exact give_remaining isLeft given
        · cases given
        · cases given
        · split at given
          · exact ih ((remaining_enter stream _ _).trans isLeft) given
          · cases given
          · cases given

/-- A time that is given out is one of those left. -/
theorem next_remaining (isLeft : stream.remaining = some left)
    (given : stream.next = (.time time, later)) :
    0 < left ∧ later.remaining = some (left - 1) := by
  unfold next at given
  split at given
  · cases given
  · exact nextWithin_remaining isLeft given

end Stream

theorem Plan.count_of_ofRule {rule : Rule} {start : WallTime} {last : Option WallTime}
    {firstWeekday : Weekday} {plan : Plan} (made : ofRule rule start last firstWeekday = some plan) :
    plan.count = rule.ending.count? := by
  simp only [ofRule, Option.pure_def, Option.bind_eq_bind, Option.bind_eq_some_iff,
    Option.some.injEq] at made
  obtain ⟨_, _, _, _, rfl⟩ := made
  rfl

theorem Expander.advance_remaining {generator later : Expander} {date : Moment} {left : Int}
    (isLeft : generator.stream.remaining = some left)
    (answered : generator.advance = (.date date, later)) :
    0 < left ∧ later.stream.remaining = some (left - 1) := by
  simp only [advance] at answered
  split at answered
  · cases answered
  · split at answered
    · cases answered
    · cases answered
    · next time given =>
        split at answered
        · cases answered
        · cases answered
          exact Stream.next_remaining isLeft (Prod.ext given rfl)

theorem Expander.advance_zone {generator later : Expander} {date : Moment}
    (answered : generator.advance = (.date date, later)) :
    later.course = generator.course ∧ date.zone = generator.course.calendar.zone := by
  simp only [advance] at answered
  split at answered
  · cases answered
  · split at answered
    · cases answered
    · cases answered
    · split at answered
      · cases answered
      · next shows =>
          cases answered
          exact ⟨rfl, Calendar.zone_of_shown shows⟩

namespace Generator

variable {generator later : Generator} {date : Moment} {dates others : List Moment} {left : Nat}

/-- A generator whose rule wants no more than a number of further dates. -/
inductive AtMost (left : Nat) : Generator → Prop
  | weekly {walk : WeeklyWalk} {count : Int} (ending_eq : walk.course.ending = .afterCount count)
      (count_eq : walk.cursor.count + left = count) : AtMost left (.weekly walk)
  | expanding {expander : Expander} (remaining_eq : expander.stream.remaining = some (left : Int)) :
      AtMost left (.expanding expander)

theorem AtMost.advance (atMost : generator.AtMost left)
    (answered : generator.advance = (.date date, later)) :
    ∃ fewer, left = fewer + 1 ∧ later.AtMost fewer := by
  cases atMost with
  | @weekly walk count ending_eq count_eq =>
      obtain ⟨isDate, rfl⟩ := Prod.mk.inj answered
      have answers : walk.advance = (.date date, walk.advance.2) := Prod.ext isDate rfl
      obtain ⟨counted, fewer⟩ := WeeklyWalk.advance_counts answers
      have less := fewer count ending_eq
      refine ⟨left - 1, by omega, .weekly ((WeeklyWalk.advance_date answers).1 ▸ ending_eq) ?_⟩
      rw [counted]
      omega
  | @expanding expander remaining_eq =>
      obtain ⟨isDate, rfl⟩ := Prod.mk.inj answered
      have answers : expander.advance = (.date date, expander.advance.2) := Prod.ext isDate rfl
      obtain ⟨positive, remaining⟩ := Expander.advance_remaining remaining_eq answers
      refine ⟨left - 1, by omega, .expanding ?_⟩
      rw [remaining]
      congr 1
      omega

theorem AtMost.length_le (atMost : generator.AtMost left) (gives : generator.Gives dates) :
    dates.length ≤ left := by
  induction gives generalizing left with
  | nil => exact Nat.zero_le left
  | cons answered _ ih =>
      obtain ⟨fewer, rfl, atMostLater⟩ := atMost.advance answered
      exact Nat.succ_le_succ (ih atMostLater)

/-- A generator in a zone.  A walk also stands at a date of it. -/
inductive InZone (zone : Zone) : Generator → Prop
  | weekly {walk : WeeklyWalk} (course_eq : walk.course.calendar.zone = zone)
      (current_eq : walk.cursor.current.zone = zone) : InZone zone (.weekly walk)
  | expanding {expander : Expander} (course_eq : expander.course.calendar.zone = zone) :
      InZone zone (.expanding expander)

/-- A generator gives out dates of its zone and stays in it. -/
theorem InZone.advance {zone : Zone} (inZone : generator.InZone zone)
    (answered : generator.advance = (.date date, later)) : date.zone = zone ∧ later.InZone zone := by
  cases inZone with
  | @weekly walk course_eq current_eq =>
      obtain ⟨isDate, rfl⟩ := Prod.mk.inj answered
      have answers : walk.advance = (.date date, walk.advance.2) := Prod.ext isDate rfl
      obtain ⟨same, _, walked, moved⟩ := WeeklyWalk.advance_date answers
      obtain ⟨_, _, _, read⟩ := WeeklyWalk.shift_of_nextDate moved
      have moved_eq := Zone.zone_of_localizeWith read
      exact ⟨(walked.zone_eq (current_eq.trans course_eq.symm)).trans course_eq,
        .weekly (by rw [same, course_eq]) (moved_eq.trans course_eq)⟩
  | @expanding expander course_eq =>
      obtain ⟨isDate, rfl⟩ := Prod.mk.inj answered
      have answers : expander.advance = (.date date, expander.advance.2) := Prod.ext isDate rfl
      obtain ⟨same, zone_eq⟩ := Expander.advance_zone answers
      exact ⟨zone_eq.trans course_eq, .expanding (by rw [same, course_eq])⟩

variable {bound wider : Option Moment} {fewer more : Nat}

theorem Takes.length_le (takes : Takes bound more generator dates) : dates.length ≤ more := by
  induction takes with
  | enough => exact Nat.le_refl 0
  | finished => exact Nat.zero_le _
  | behind => exact Nat.zero_le _
  | date _ _ _ ih => exact Nat.succ_le_succ ih

end Generator

namespace Expansion

/-- A second bound admits all that a first one does: there is none, or it does not come before the first one
when the calendar shows them both. -/
def Widens (calendar : Calendar) (bound wider : Option DateTime) : Prop :=
  ∀ later ∈ wider, ∃ date ∈ bound, ∃ first last, calendar.localize date = some first ∧
    calendar.localize later = some last ∧ last.isBefore first = false

variable {rule : Rule} {start : DateTime} {calendar : Calendar} {bound wider : Option DateTime}
  {limit fewer more : Int} {dates others : List Moment}

theorem Widens.localized {shown shownWider : Option Moment} (widens : Widens calendar bound wider)
    (shows : localizeBound calendar bound = some shown)
    (showsWider : localizeBound calendar wider = some shownWider) :
    ∀ last ∈ shownWider, ∃ earlier ∈ shown, earlier.zone = calendar.zone ∧ last.zone = calendar.zone ∧
      last.isBefore earlier = false := by
  cases wider with
  | none =>
      cases showsWider
      exact nofun
  | some later =>
      obtain ⟨date, isBound, first, last, showsFirst, showsLast, notBefore⟩ := widens later rfl
      cases isBound
      simp only [localizeBound, showsFirst, showsLast, Option.map_some] at shows showsWider
      cases shows
      cases showsWider
      intro other same
      cases same
      exact ⟨first, rfl, Calendar.zone_of_shown showsFirst, Calendar.zone_of_shown showsLast, notBefore⟩

end Expansion

end Recurrence
