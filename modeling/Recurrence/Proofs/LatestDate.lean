import Recurrence.Proofs.Calls
import Recurrence.Proofs.Expansion.Limits
import Recurrence.Proofs.Occurrences
import Recurrence.Proofs.Zone.Behind

namespace Recurrence

/-! How late the dates of a rule with a last date are.

A weekly walk compares instants and never goes past the last date, unless it is in a plain zone, where
times are compared as the clocks show them.  An expander always compares these: its dates are not ahead of
the clocks at the last date, but one that the zone skips or repeats may still be a later instant
(`Registry.date_le_or_notAhead`).
-/

variable {rule : Rule} {start : DateTime} {calendar : Calendar} {final date : Moment}

theorem Course.exists_last_of_begins {course : Course} {cursor : Cursor}
    (begins : Begins rule start calendar course cursor) (ends : rule.ending = .afterDate final) :
    ∃ last, course.last = some last ∧ calendar.localize (.aware final) = some last := by
  have shows := begins.shows_last
  rw [ends, Ending.date?, Option.map_some, Option.map_eq_some_iff] at shows
  obtain ⟨last, isLast, shown⟩ := shows
  exact ⟨last, isLast, shown.symm⟩

namespace WeeklyWalk

theorem notPassed_of_walk {course : Course} {filter : WeekdayFilter} {days : Nat} {cursor : Cursor}
    (answered : (walk course filter days cursor).1 = .date date) :
    ∀ last ∈ course.last, last.isBefore date = false := by
  induction days generalizing cursor with
  | zero => contradiction
  | succ days ih =>
      unfold walk at answered
      split at answered
      · contradiction
      · next notReached =>
          split at answered
          · contradiction
          · split at answered
            · contradiction
            · cases answered
              intro last isLast
              refine Bool.eq_false_iff.mpr fun behind => notReached ?_
              rw [Course.reachedEnd, isLast, Option.any_some, behind, Bool.or_true]
            · exact ih answered

/-- The last date of its course is not before any date of a walk. -/
theorem notPassed_of_calls {generator : WeeklyWalk} {number : Nat} {call : Call}
    (member : call ∈ (Generator.weekly generator).calls number) (answered : call.answer = .date date) :
    ∀ last ∈ generator.course.last, last.isBefore date = false := by
  refine Generator.forall_mem_calls
    (fun later => ∃ walk, later = .weekly walk ∧ walk.course = generator.course)
    (fun call => ∀ date, call.answer = .date date →
      ∀ last ∈ generator.course.last, last.isBefore date = false)
    ?_ ⟨generator, rfl, rfl⟩ number call member date answered
  rintro _ ⟨walk, rfl, same⟩
  refine ⟨fun date answered => ?_, walk.advance.2, rfl, ?_⟩
  · rw [← same]
    simp only [Generator.call, Generator.advance, advance] at answered
    split at answered
    · contradiction
    · exact notPassed_of_walk answered
  · rw [(walked_of_advance walk).1, same]

theorem mem_answers_of_mem_calls {generator : WeeklyWalk} {number : Nat} {call : Call}
    (member : call ∈ (Generator.weekly generator).calls number) :
    call.answer ∈ answers number generator := by
  induction number generalizing generator with
  | zero => contradiction
  | succ number ih =>
      cases member with
      | head => exact List.mem_cons_self
      | tail _ later => exact List.mem_cons_of_mem _ (ih later)

/-- The dates of a walk are walked over, from the start as the calendar shows it. -/
theorem walked_of_calls {generator : WeeklyWalk} {number : Nat} {call : Call}
    (member : call ∈ (Generator.weekly generator).calls number) (answered : call.answer = .date date) :
    ∃ passed, Walked generator.course generator.cursor.current passed date := by
  have given := mem_answers_of_mem_calls member
  rw [answered] at given
  exact walked_of_mem_answers given

end WeeklyWalk

namespace Expander

theorem plan_advance (generator : Expander) :
    generator.advance.2.course = generator.course ∧
      generator.advance.2.stream.plan = generator.stream.plan := by
  have kept := generator.stream.plan_next
  simp only [advance]
  split
  · exact ⟨rfl, rfl⟩
  · split
    · exact ⟨rfl, kept⟩
    · exact ⟨rfl, kept⟩
    · split
      · exact ⟨rfl, kept⟩
      · exact ⟨rfl, kept⟩

theorem admits_of_advance {generator : Expander} (answered : generator.advance.1 = .date date) :
    generator.course.calendar.zone.localize date.wall = some date ∧
      generator.stream.plan.Admits date.wall := by
  simp only [advance] at answered
  split at answered
  · contradiction
  · split at answered
    · contradiction
    · contradiction
    · next time given =>
        split at answered
        · contradiction
        · next read =>
            cases answered
            have wall := Zone.wall_of_localize read
            subst wall
            exact ⟨read, Stream.next_admits given⟩

/-- Every date of an expander is read in its zone from a time that its plan admits. -/
theorem admits_of_calls {generator : Expander} {number : Nat} {call : Call}
    (member : call ∈ (Generator.expanding generator).calls number)
    (answered : call.answer = .date date) :
    generator.course.calendar.zone.localize date.wall = some date ∧
      generator.stream.plan.Admits date.wall := by
  refine Generator.forall_mem_calls
    (fun later => ∃ expander, later = .expanding expander ∧
      expander.course = generator.course ∧ expander.stream.plan = generator.stream.plan)
    (fun call => ∀ date, call.answer = .date date →
      generator.course.calendar.zone.localize date.wall = some date ∧
        generator.stream.plan.Admits date.wall)
    ?_ ⟨generator, rfl, rfl, rfl⟩ number call member date answered
  rintro _ ⟨expander, rfl, sameCourse, samePlan⟩
  obtain ⟨keptCourse, keptPlan⟩ := plan_advance expander
  refine ⟨fun date answered => ?_, expander.advance.2, rfl, ?_, ?_⟩
  · rw [← sameCourse, ← samePlan]
    exact admits_of_advance answered
  · rw [keptCourse, sameCourse]
  · rw [keptPlan, samePlan]

end Expander

namespace Plan

variable {begun : WallTime} {last : Option WallTime} {firstWeekday : Weekday} {plan : Plan}

theorem limits_of_ofRule (made : ofRule rule begun last firstWeekday = some plan) :
    plan.start = begun.truncate ∧ plan.last = last := by
  simp only [ofRule, Option.pure_def, Option.bind_eq_bind, Option.bind_eq_some_iff,
    Option.some.injEq] at made
  obtain ⟨_, _, _, _, rfl⟩ := made
  exact ⟨rfl, rfl⟩

theorem last_of_ofRule (made : ofRule rule begun last firstWeekday = some plan) : plan.last = last :=
  (limits_of_ofRule made).2

end Plan

/-- A date that a calendar does not take for one behind a last date is not later, but in a plain zone: there
the clocks have reached what the date shows at the instant of the last date. -/
theorem Calendar.le_or_reached {last : Moment} (coherent : final.Coherent)
    (shows : calendar.localize (.aware final) = some last) (zone_eq : date.zone = calendar.zone)
    (notPassed : last.isBefore date = false) :
    date ≤ final ∨ calendar.zone.isPlain = true ∧
      (date.wall.micros : Int) ≤ calendar.zone.clock final.instant := by
  have lastZone := zone_of_shown shows
  cases plain : calendar.zone.isPlain with
  | false =>
      rw [Moment.isBefore_eq_lt (by rw [lastZone, plain]), decide_eq_false_iff_not] at notPassed
      refine .inl ?_
      change date.instant ≤ final.instant
      rw [← instant_of_shown shows]
      exact Int.not_lt.mp notPassed
  | true =>
      rw [Moment.isBefore_eq_wall_lt (by rw [lastZone, plain]) (lastZone.trans zone_eq.symm),
        decide_eq_false_iff_not] at notPassed
      have wall_le : date.wall.micros ≤ last.wall.micros := Nat.not_lt.mp notPassed
      have face := face_of_shown shows
      have clock := @Zone.face_le_clock calendar.zone final coherent
      exact .inr ⟨rfl, by omega⟩

namespace Registry

/-- A date of a rule with a last date is at or before it when a weekly walk gives it out, unless the zone
is plain.  There, and when an expander gives it out, the clocks have reached what the date shows at the
instant of the last date. -/
theorem date_le_or_notAhead {variant : Variant} {generator : Generator} {number : Nat} {call : Call}
    (ends : rule.ending = .afterDate final) (coherent : final.Coherent)
    (found : (initial.create rule start calendar).result = .ok (variant, generator))
    (member : call ∈ generator.calls number) (answered : call.answer = .date date) :
    variant = .weekly ∧ (date ≤ final ∨
        calendar.zone.isPlain = true ∧ (start.Coherent → calendar.zone.NotAhead final date)) ∨
      variant = .expanding ∧ calendar.zone.NotAhead final date := by
  rcases built_of_create found with ⟨isWeekly, walk, built, rfl⟩ | ⟨isExpanding, expander, built, rfl⟩
  · refine .inl ⟨isWeekly, ?_⟩
    have begins := WeeklyWalk.begins_of_build built
    obtain ⟨last, isLast, shows⟩ := Course.exists_last_of_begins begins ends
    obtain ⟨passed, walked⟩ := WeeklyWalk.walked_of_calls member answered
    have zone_eq : date.zone = calendar.zone := by
      rw [walked.zone_eq (by rw [Calendar.zone_of_shown begins.shows_start, begins.calendar_eq]),
        begins.calendar_eq]
    have notPassed := WeeklyWalk.notPassed_of_calls member answered last isLast
    refine (Calendar.le_or_reached coherent shows zone_eq notPassed).imp_right fun plain => ?_
    obtain ⟨isPlain, reached⟩ := plain
    refine ⟨isPlain, fun startCoherent => ?_⟩
    have fits := Calendar.fits_of_shown startCoherent begins.shows_start
    rw [← begins.calendar_eq] at fits
    have dateCoherent := (walked.fits fits).coherent
    rw [← zone_eq] at isPlain reached ⊢
    exact Zone.notAhead_of_coherent (Zone.not_consults_of_isPlain isPlain) dateCoherent reached
  · refine .inr ⟨isExpanding, ?_⟩
    obtain ⟨begins, _, plan, made, stream⟩ := Expander.begins_of_build built
    obtain ⟨last, isLast, shows⟩ := Course.exists_last_of_begins begins ends
    obtain ⟨read, admits⟩ := Expander.admits_of_calls member answered
    rw [begins.calendar_eq] at read
    rw [stream, Stream.plan_ofPlan] at admits
    have notLater : date.wall ≤ last.wall := by
      refine admits.le_last last.wall ?_
      rw [Plan.last_of_ofRule made, isLast]
      rfl
    refine Zone.notAhead_of_localize read ?_
    have face := Calendar.face_of_shown shows
    have clock := @Zone.face_le_clock calendar.zone final coherent
    have wall_le : date.wall.micros ≤ last.wall.micros := notLater
    omega

theorem exists_call_of_answers {number : Nat} {answers : List Answer} {answer : Answer}
    (answered : (initial.create rule start calendar).result.map
      (fun found => (found.2.calls number).map Call.answer) = .ok answers)
    (member : answer ∈ answers) :
    ∃ variant generator,
      (initial.create rule start calendar).result = .ok (variant, generator) ∧
      ∃ call ∈ generator.calls number, call.answer = answer := by
  cases found : (initial.create rule start calendar).result with
  | error failure =>
      rw [found] at answered
      contradiction
  | ok pair =>
      rw [found] at answered
      have same : (pair.2.calls number).map Call.answer = answers := Except.ok.inj answered
      refine ⟨pair.1, pair.2, rfl, List.mem_map.1 ?_⟩
      rw [same]
      exact member

/-- The first half past one of 3 November 2024 in New York, which comes twice. -/
def firstHalfPastOne : Moment := ⟨⟨63866208600000000, by decide⟩, 0, .utc⟩

def secondHalfPastOne : Moment :=
  ⟨⟨63866188800000000 + 5400000000, by decide⟩, -18000000000, Expansion.newYork.zone⟩

def upToFirstHalfPastOne : Rule where
  frequency := .daily
  ending := .afterDate firstHalfPastOne

/-- A day before the last date. -/
def halfPastOneStart : WallTime := ⟨63866107800000000, by decide⟩

theorem answers_upToFirstHalfPastOne :
    (initial.create upToFirstHalfPastOne (.naive halfPastOneStart) Expansion.newYork).result.map
      (fun found => (found.2.calls 2).map Call.answer) =
        .ok [.date ⟨halfPastOneStart, -14400000000, Expansion.newYork.zone⟩, .date secondHalfPastOne] := by
  decide +kernel

theorem exists_call_secondHalfPastOne :
    ∃ variant generator,
      (initial.create upToFirstHalfPastOne (.naive halfPastOneStart) Expansion.newYork).result =
        .ok (variant, generator) ∧
      ∃ call ∈ generator.calls 2, call.answer = .date secondHalfPastOne :=
  exists_call_of_answers answers_upToFirstHalfPastOne (List.mem_cons_of_mem _ List.mem_cons_self)

theorem secondHalfPastOne_notAhead :
    Expansion.newYork.zone.NotAhead firstHalfPastOne secondHalfPastOne := by
  obtain ⟨variant, generator, found, call, member, answered⟩ := exists_call_secondHalfPastOne
  have coherent : firstHalfPastOne.Coherent := Zone.coherent_of_clock (by decide)
  rcases date_le_or_notAhead rfl coherent found member answered with
    ⟨_, notLater | ⟨plain, _⟩⟩ | ⟨_, notAhead⟩
  · exact absurd notLater (by decide +kernel)
  · contradiction
  · exact notAhead

/-- Dates may be later than the last date: half past one is given out as its second instant when the
first is the last one allowed. -/
theorem not_forall_dates_le_last :
    ¬ ∀ (rule : Rule) (start : DateTime) (calendar : Calendar) (final date : Moment)
      (variant : Variant) (generator : Generator) (number : Nat) (call : Call), rule.Valid →
        start.Coherent → final.Coherent → rule.ending = .afterDate final →
          (initial.create rule start calendar).result = .ok (variant, generator) →
            call ∈ generator.calls number → call.answer = .date date → date ≤ final := by
  intro notLater
  obtain ⟨variant, generator, found, call, member, answered⟩ := exists_call_secondHalfPastOne
  have coherent : firstHalfPastOne.Coherent := Zone.coherent_of_clock (by decide)
  have bounded := notLater upToFirstHalfPastOne (.naive halfPastOneStart) Expansion.newYork
    firstHalfPastOne secondHalfPastOne variant generator 2 call (by decide)
    (DateTime.coherent_naive _) coherent rfl found member answered
  exact absurd bounded (by decide +kernel)

end Registry

end Recurrence
