import Recurrence.Proofs.LatestDate
import Recurrence.Proofs.Zone.Ahead

namespace Recurrence

/-! How early the dates of a rule are.

A weekly walk begins at its start and only goes forward.  An expander begins at the second of its start,
so the first of its dates may lack a fraction of a second, and a start that the clocks skip is put
behind the gap while later times need not be (`Registry.start_le_or_notBehind`).
-/

variable {rule : Rule} {start : DateTime} {calendar : Calendar} {date : Moment}

namespace WeeklyWalk

variable {course : Course}

/-- A walk from a date leads to that date or to later ones. -/
theorem Walked.le {first : Moment} {passed : List Moment} (positive : 1 ≤ course.interval)
    (fits : course.calendar.Fits first) (walked : Walked course first passed date) :
    first ≤ date := by
  induction walked with
  | nil => exact Int.le_refl _
  | step before moved ih =>
      have coherent := (before.fits fits).coherent
      obtain ⟨ahead, read⟩ := Walked.nil.face_add_day_le positive moved
      exact Int.le_trans ih (Zone.le_of_face_add_day_le coherent ahead read)

theorem start_le_of_calls {generator : WeeklyWalk} {number : Nat} {call : Call} (valid : rule.Valid)
    (coherent : start.Coherent) (built : build rule start calendar = .ok generator)
    (member : call ∈ (Generator.weekly generator).calls number) (answered : call.answer = .date date) :
    generator.cursor.current ≤ date := by
  have begins := begins_of_build built
  have fits := Calendar.fits_of_shown coherent begins.shows_start
  obtain ⟨passed, walked⟩ := walked_of_calls member answered
  refine walked.le ?_ ?_
  · rw [begins.interval_eq]
    exact valid.1
  · rw [begins.calendar_eq]
    exact fits

end WeeklyWalk

theorem Expander.notBehind_of_calls {generator : Expander} {number : Nat} {call : Call}
    (coherent : start.Coherent) (built : build rule start calendar = .ok generator)
    (member : call ∈ (Generator.expanding generator).calls number)
    (answered : call.answer = .date date) :
    calendar.zone.NotBehind generator.cursor.current date := by
  obtain ⟨begins, _, plan, made, stream⟩ := begins_of_build built
  obtain ⟨read, admits⟩ := admits_of_calls member answered
  rw [begins.calendar_eq] at read
  rw [stream, Stream.plan_ofPlan] at admits
  refine Zone.notBehind_of_localize coherent begins.shows_start read admits.whole ?_
  rw [← (Plan.limits_of_ofRule made).1]
  exact admits.start_le

namespace Registry

/-- The start of a rule can be shown.  The dates of a weekly walk are at or after it, those of an
expander are not behind it but for the exceptions of `Zone.NotBehind`. -/
theorem start_le_or_notBehind {variant : Variant} {generator : Generator} {number : Nat} {call : Call}
    (valid : rule.Valid) (coherent : start.Coherent)
    (found : (initial.create rule start calendar).result = .ok (variant, generator))
    (member : call ∈ generator.calls number) (answered : call.answer = .date date) :
    ∃ first, calendar.localize start = some first ∧
      (variant = .weekly ∧ first ≤ date ∨
        variant = .expanding ∧ calendar.zone.NotBehind first date) := by
  rcases built_of_create found with ⟨isWeekly, walk, built, rfl⟩ | ⟨isExpanding, expander, built, rfl⟩
  · refine ⟨walk.cursor.current, (WeeklyWalk.begins_of_build built).shows_start, .inl ⟨isWeekly, ?_⟩⟩
    exact WeeklyWalk.start_le_of_calls valid coherent built member answered
  · refine ⟨expander.cursor.current, (Expander.begins_of_build built).1.shows_start,
      .inr ⟨isExpanding, ?_⟩⟩
    exact Expander.notBehind_of_calls coherent built member answered

/-- Half a second past 09:00 on 1 January 2024. -/
def halfSecondPastNine : WallTime := ⟨63839696400500000, by decide⟩

def daily : Rule := { frequency := .daily }

theorem answers_daily :
    (initial.create daily (.naive halfSecondPastNine) {}).result.map
      (fun found => (found.2.calls 1).map Call.answer) =
        .ok [.date ⟨halfSecondPastNine.truncate, 0, .utc⟩] := by
  decide +kernel

theorem exists_call_atNine :
    ∃ variant generator,
      (initial.create daily (.naive halfSecondPastNine) {}).result = .ok (variant, generator) ∧
      ∃ call ∈ generator.calls 1, call.answer = .date ⟨halfSecondPastNine.truncate, 0, .utc⟩ :=
  exists_call_of_answers answers_daily List.mem_cons_self

theorem atNine_notBehind :
    Zone.utc.NotBehind ⟨halfSecondPastNine, 0, .utc⟩ ⟨halfSecondPastNine.truncate, 0, .utc⟩ := by
  obtain ⟨variant, generator, found, call, member, answered⟩ := exists_call_atNine
  obtain ⟨first, shown, placed⟩ :=
    start_le_or_notBehind (by decide) (DateTime.coherent_naive _) found member answered
  obtain rfl := Option.some.inj shown
  rcases placed with ⟨_, notEarlier⟩ | ⟨_, notBehind⟩
  · exact absurd notEarlier (by decide)
  · exact notBehind

/-- Dates may be earlier than the start: half a second past nine is given out as nine. -/
theorem not_forall_start_le_dates :
    ¬ ∀ (rule : Rule) (start : DateTime) (calendar : Calendar) (first date : Moment)
      (variant : Variant) (generator : Generator) (number : Nat) (call : Call), rule.Valid →
        start.Coherent → calendar.localize start = some first →
          (initial.create rule start calendar).result = .ok (variant, generator) →
            call ∈ generator.calls number → call.answer = .date date → first ≤ date := by
  intro notEarlier
  obtain ⟨variant, generator, found, call, member, answered⟩ := exists_call_atNine
  have ordered := notEarlier daily (.naive halfSecondPastNine) {} ⟨halfSecondPastNine, 0, .utc⟩
    ⟨halfSecondPastNine.truncate, 0, .utc⟩ variant generator 1 call (by decide)
    (DateTime.coherent_naive _) rfl found member answered
  exact absurd ordered (by decide)

end Registry

end Recurrence
