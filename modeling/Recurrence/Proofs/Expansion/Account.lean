import Recurrence.Proofs.EarliestDate
import Recurrence.Proofs.Extension

namespace Recurrence

/-! The account that an expanding generator keeps over its calls.

A time is counted when it is expanded, and only then is it shown in the calendar.  So the count is the
number of dates told and of times that could not be shown (`Expander.count_eq_told_add_unshown`).  Only
a time of the last day cannot be shown.  An end is final, and behind a failed expansion there is one.
-/

/-- Whether a reply tells that a date lies outside the calendar. -/
def Reply.isUnshown : Reply → Bool
  | .broken (.outOfRange _) => true
  | _ => false

namespace Stream

variable {stream later : Stream} {answer : StreamAnswer}

theorem next_of_ended (ended : stream.ended = true) : stream.next = (.finished, stream) := by
  rw [next, if_pos ended]

theorem give_closes {found : WallTime} {rest : List DayTimes}
    (given : stream.give found rest = (answer, later)) (untimed : ∀ time, answer ≠ .time time) :
    later.ended = true := by
  unfold give at given
  split at given
  · cases given
    exact absurd rfl (untimed found)
  · split at given
    · cases given
      rfl
    · cases given
      exact absurd rfl (untimed found)

theorem nextWithin_closes {periods : Nat} (given : nextWithin periods stream = (answer, later))
    (untimed : ∀ time, answer ≠ .time time) : later.ended = true := by
  induction periods generalizing stream with
  | zero =>
      cases given
      rfl
  | succ periods ih =>
      unfold nextWithin at given
      split at given
      · cases given
        rfl
      · split at given
        · exact give_closes given untimed
        · cases given
          rfl
        · cases given
          rfl
        · split at given
          · exact ih given
          · cases given
            rfl
          · cases given
            rfl

/-- A stream that gives no time has ended, whether it has finished or failed. -/
theorem next_closes (given : stream.next = (answer, later)) (untimed : ∀ time, answer ≠ .time time) :
    later.ended = true := by
  unfold next at given
  split at given
  · next ended =>
      cases given
      exact ended
  · exact nextWithin_closes given untimed

end Stream

namespace Calendar

variable {calendar : Calendar} {start : DateTime} {first : Moment} {time : WallTime}

/-- What a calendar shows in a zone that looks times up has its own instant in the calendar. -/
theorem inCalendar_of_shown (consults : calendar.zone.consults = true)
    (shows : calendar.localize start = some first) :
    first.wall.InCalendar (calendar.zone.offsetAt first.wall.micros) := by
  cases start with
  | naive time =>
      have wall := Zone.wall_of_localize shows
      rw [wall]
      refine Decidable.not_not.mp fun outside => ?_
      have unread : calendar.zone.localize time = none :=
        Zone.localize_eq_none_iff.mpr ⟨consults, outside⟩
      rw [localize, unread] at shows
      contradiction
  | aware moment =>
      rw [localize, Zone.not_keeps consults, if_neg Bool.false_ne_true] at shows
      obtain ⟨_, _, shown⟩ := Zone.eq_of_at shows
      have inside := (Zone.at_isSome.mp (Option.isSome_iff_exists.mpr ⟨first, shows⟩)).1
      cases isZone : calendar.zone with
      | steady | fixed =>
          rw [isZone] at consults
          contradiction
      | varying history manner =>
          rw [isZone] at shown
          exact Zone.History.inCalendar_of_clock inside shown.symm

/-- From the second of a shown date on, only times of the last day cannot be read. -/
theorem lastDay_of_localize_eq_none (shows : calendar.localize start = some first)
    (behind : first.wall.truncate ≤ time) (unread : calendar.zone.localize time = none) :
    time.day + 1 = dayCount := by
  refine (Zone.day_of_localize_eq_none unread).resolve_left fun firstDay => ?_
  obtain ⟨varies, outside⟩ := Zone.localize_eq_none_iff.mp unread
  cases isZone : calendar.zone with
  | steady | fixed =>
      rw [isZone] at varies
      contradiction
  | varying history manner =>
      have inside := inCalendar_of_shown varies shows
      rw [isZone] at outside inside
      have lower : first.wall.truncate.micros ≤ time.micros := behind
      have close := first.wall.lt_truncate_add
      have whole : first.wall.truncate.micros % 1000000 = 0 := by
        simp only [WallTime.truncate, WallTime.microsecond, microsPerSecond]
        omega
      simp only [WallTime.day, microsPerDay] at firstDay
      -- Nothing changes on the first day, so both times have one offset.
      obtain ⟨phase, near, settled⟩ := @Zone.History.exists_settled history time (by omega)
      have size : calendarMicros = 315537897600000000 := rfl
      have offset : (Zone.varying history manner).offsetAt time.micros = phase.offset * 1000000 := by
        rw [Zone.offsetAt, settled time.micros (by omega) (by omega)]
      have firstOffset : (Zone.varying history manner).offsetAt first.wall.micros =
          phase.offset * 1000000 := by
        rw [Zone.offsetAt, settled first.wall.micros (by omega) (by omega)]
      rw [offset] at outside
      rw [firstOffset] at inside
      simp only [WallTime.InCalendar] at outside inside
      omega

end Calendar

namespace Expander

/-- How a call ends, and what it leaves behind. -/
inductive Outcome (generator : Expander) : Answer × Expander → Prop
  | date {time : WallTime} {date : Moment} {later : Stream}
      (given : generator.stream.next = (.time time, later))
      (read : generator.course.calendar.zone.localize time = some date) :
      Outcome generator (.date date, { generator with
        stream := later, cursor := ⟨date, generator.cursor.count + 1, false⟩ })
  | unshown {time : WallTime} {later : Stream}
      (given : generator.stream.next = (.time time, later))
      (unread : generator.course.calendar.zone.localize time = none) :
      Outcome generator (.broken .range, { generator with
        stream := later
        cursor := ⟨generator.cursor.current, generator.cursor.count + 1, false⟩ })
  | failed {fault : StreamFault} {later : Stream}
      (given : generator.stream.next = (.failed fault, later)) :
      Outcome generator (.broken (.failed fault), { generator with stream := later })
  | finished {later : Stream} (given : generator.stream.next = (.finished, later)) :
      Outcome generator (.finished, { generator with
        stream := later, cursor := { generator.cursor with exhausted := true } })
  | exhausted (isExhausted : generator.cursor.exhausted = true) :
      Outcome generator (.finished, generator)

theorem outcome_of_advance (generator : Expander) : Outcome generator generator.advance := by
  cases isExhausted : generator.cursor.exhausted with
  | true =>
      rw [advance, if_pos isExhausted]
      exact .exhausted isExhausted
  | false =>
      simp only [advance, isExhausted, Bool.false_eq_true, if_false]
      cases answered : generator.stream.next with
      | mk answer later =>
          cases answer with
          | finished => exact .finished answered
          | failed fault => exact .failed answered
          | time time =>
              cases read : generator.course.calendar.zone.localize time with
              | none =>
                  simp only [Calendar.localize, read]
                  exact .unshown answered read
              | some date =>
                  simp only [Calendar.localize, read]
                  exact .date answered read

variable {ending : Ending} {calendar : Calendar} {first : Moment} {generator : Expander}

/-- A call adds to the count a date that it tells and a time that it cannot show, and nothing else. -/
theorem count_advance (generator : Expander) (request : Request) :
    generator.advance.2.cursor.count = generator.cursor.count +
      ([generator.advance.1.reply request].countP Reply.isDate +
        [generator.advance.1.reply request].countP Reply.isUnshown) := by
  have outcome := generator.outcome_of_advance
  generalize generator.advance = result at outcome ⊢
  cases outcome with
  | date => rfl
  | unshown => rfl
  | failed => rfl
  | finished => cases request <;> rfl
  | exhausted => cases request <;> rfl

theorem stays_finished (finished : generator.advance.1 = .finished) :
    (Generator.expanding generator.advance.2).Stays .finished := by
  have outcome := generator.outcome_of_advance
  generalize generator.advance = result at outcome finished ⊢
  cases outcome with
  | date | unshown | failed => cases finished
  | finished => exact Generator.stays_of_advance (Generator.advance_expanding_of_exhausted rfl)
  | exhausted isExhausted =>
      exact Generator.stays_of_advance (Generator.advance_expanding_of_exhausted isExhausted)

/-- A failed expansion counts nothing, and the next call is told that no date is left. -/
theorem finished_of_failed {fault : StreamFault} (failed : generator.advance.1 = .broken (.failed fault)) :
    generator.advance.2.cursor = generator.cursor ∧ generator.advance.2.advance.1 = .finished := by
  have outcome := generator.outcome_of_advance
  generalize generator.advance = result at outcome failed ⊢
  cases outcome with
  | date | unshown | finished | exhausted => cases failed
  | @failed fault later given =>
      have ended := Stream.next_closes given nofun
      refine ⟨rfl, ?_⟩
      simp only [advance, Stream.next_of_ended ended]
      split <;> rfl

/-- What holds of an expanding generator between its calls. -/
structure Sound (ending : Ending) (calendar : Calendar) (first : Moment) (generator : Expander) :
    Prop where
  calendar_eq : generator.course.calendar = calendar
  start_eq : generator.stream.plan.start = first.wall.truncate
  within : ∀ count, ending = .afterCount count → (generator.cursor.count : Int) ≤ count
  remaining_eq : generator.stream.ended = false → ∀ count, ending = .afterCount count →
    generator.stream.remaining = some (count - generator.cursor.count)

theorem Sound.fewer {time : WallTime} {later : Stream} {count : Int}
    (sound : Sound ending calendar first generator)
    (given : generator.stream.next = (.time time, later)) (isCount : ending = .afterCount count) :
    (generator.cursor.count : Int) < count ∧
      later.remaining = some (count - (generator.cursor.count + 1 : Nat)) := by
  have running : generator.stream.ended = false := by
    cases ended : generator.stream.ended with
    | false => rfl
    | true =>
        rw [Stream.next_of_ended ended] at given
        cases given
  obtain ⟨positive, remaining⟩ := Stream.next_remaining (sound.remaining_eq running count isCount) given
  refine ⟨by omega, ?_⟩
  rw [remaining]
  congr 1
  omega

theorem Sound.advance (sound : Sound ending calendar first generator) :
    Sound ending calendar first generator.advance.2 := by
  obtain ⟨course_eq, plan_eq⟩ := generator.plan_advance
  have calendar_eq := (congrArg Course.calendar course_eq).trans sound.calendar_eq
  have start_eq := (congrArg Plan.start plan_eq).trans sound.start_eq
  have outcome := generator.outcome_of_advance
  generalize generator.advance = result at outcome calendar_eq start_eq ⊢
  cases outcome with
  | date given | unshown given =>
      refine ⟨calendar_eq, start_eq, fun count isCount => ?_, fun _ count isCount => ?_⟩
      · have fewer := (sound.fewer given isCount).1
        simp only
        omega
      · exact (sound.fewer given isCount).2
  | failed given | finished given =>
      have ended := Stream.next_closes given nofun
      refine ⟨calendar_eq, start_eq, sound.within, fun running => ?_⟩
      exact Bool.noConfusion (running.symm.trans ended)
  | exhausted => exact sound

theorem sound_of_build {rule : Rule} {start : DateTime} (valid : rule.Valid)
    (built : build rule start calendar = .ok generator) :
    ∃ first, calendar.localize start = some first ∧ Sound rule.ending calendar first generator := by
  obtain ⟨begins, _, plan, made, isStream⟩ := begins_of_build built
  refine ⟨generator.cursor.current, begins.shows_start, begins.calendar_eq, ?_, ?_, ?_⟩
  · rw [isStream, Stream.plan_ofPlan, (Plan.limits_of_ofRule made).1]
  · intro count isCount
    rw [begins.count_eq]
    exact Int.le_of_lt (valid.one_le_count isCount)
  · intro _ count isCount
    rw [isStream, Stream.remaining_ofPlan, Plan.count_of_ofRule made, isCount, begins.count_eq]
    exact congrArg some (Int.sub_zero count).symm

theorem Sound.run (sound : Sound ending calendar first generator) (requests : List Request) :
    ∃ later, ((Generator.expanding generator).run requests).2 = .expanding later ∧
      Sound ending calendar first later ∧
      later.cursor.count = generator.cursor.count +
        (((Generator.expanding generator).run requests).1.countP Reply.isDate +
          ((Generator.expanding generator).run requests).1.countP Reply.isUnshown) := by
  induction requests generalizing generator with
  | nil => exact ⟨generator, rfl, sound, rfl⟩
  | cons request rest ih =>
      obtain ⟨later, reached, soundLater, count_eq⟩ := ih sound.advance
      refine ⟨later, reached, soundLater, ?_⟩
      have split : ((Generator.expanding generator).run (request :: rest)).1 =
          [generator.advance.1.reply request] ++
            ((Generator.expanding generator.advance.2).run rest).1 := rfl
      rw [count_eq, generator.count_advance request, split, List.countP_append, List.countP_append]
      omega

/-- A time that cannot be shown lies on the last day of the calendar. -/
theorem Sound.lastDay {start : DateTime} {fault : RangeFault}
    (sound : Sound ending calendar first generator) (shows : calendar.localize start = some first)
    (broken : generator.advance.1 = .broken (.outOfRange fault)) :
    ∃ time : WallTime, time.day + 1 = dayCount ∧ calendar.zone.localize time = none := by
  have outcome := generator.outcome_of_advance
  generalize generator.advance = result at outcome broken
  cases outcome with
  | date | failed | finished | exhausted => cases broken
  | @unshown time later given unread =>
      rw [sound.calendar_eq] at unread
      have admits : generator.stream.plan.Admits time :=
        Stream.next_admits (congrArg Prod.fst given)
      have behind := admits.start_le
      rw [sound.start_eq] at behind
      exact ⟨time, Calendar.lastDay_of_localize_eq_none shows behind unread, unread⟩

/-- Whatever was asked of an expanding generator: its count is the number of dates told and of times
that could not be shown, and never exceeds the number of dates wanted.  Once it is told that no date is
left, that stays so and nothing changes.  A time that cannot be shown lies on the last day.  A failed
expansion counts nothing, and the next call is told that no date is left. -/
theorem count_eq_told_add_unshown {rule : Rule} {start : DateTime} (valid : rule.Valid)
    (built : build rule start calendar = .ok generator) (requests : List Request) :
    let told := (Generator.expanding generator).run requests
    told.2.cursor.count = told.1.countP Reply.isDate + told.1.countP Reply.isUnshown ∧
      (∀ count, rule.ending = .afterCount count → (told.2.cursor.count : Int) ≤ count) ∧
      ∀ request,
        ((told.2.reply request).1 = Answer.finished.reply request →
          (told.2.reply request).2.Stays .finished) ∧
        (∀ fault, (told.2.reply request).1 = .broken (.outOfRange fault) →
          ∃ time : WallTime, time.day + 1 = dayCount ∧ calendar.zone.localize time = none) ∧
        ∀ fault, (told.2.reply request).1 = .broken (.failed fault) →
          (told.2.reply request).2.cursor = told.2.cursor ∧
            ∀ again, ((told.2.reply request).2.reply again).1 = Answer.finished.reply again := by
  intro told
  obtain ⟨first, shows, begins⟩ := sound_of_build valid built
  obtain ⟨later, reached, sound, count_eq⟩ := begins.run requests
  rw [(begins_of_build built).1.count_eq, Nat.zero_add] at count_eq
  change told.2 = .expanding later at reached
  rw [reached]
  refine ⟨count_eq, sound.within, fun request => ⟨fun finished => ?_, fun fault broken => ?_,
    fun fault broken => ?_⟩⟩
  · exact stays_finished (Answer.reply_injective request finished)
  · exact sound.lastDay shows (Answer.reply_injective request broken)
  · obtain ⟨cursor_eq, finished⟩ := finished_of_failed (Answer.reply_injective request broken)
    exact ⟨cursor_eq, fun again => congrArg (Answer.reply · again) finished⟩

/-- 18:00 on the last day of the calendar. -/
def lastEvening : WallTime := ⟨315537876000000000, by decide⟩

def lastHours : Rule where
  frequency := .hourly
  ending := .afterCount 3

/-- Seven in the evening of the last day in New York lies behind the calendar. -/
theorem run_lastHours :
    (build lastHours (.naive lastEvening) Expansion.newYork).map (fun generator =>
        let told := (Generator.expanding generator).run [.advance, .next]
        (told.1, told.2.cursor.count)) =
      .ok ([.date ⟨lastEvening, -18000000000, Expansion.newYork.zone⟩, .broken .range], 2) := by
  decide +kernel

theorem exists_build_lastHours :
    ∃ generator, build lastHours (.naive lastEvening) Expansion.newYork = .ok generator ∧
      ((Generator.expanding generator).run [.advance, .next]).1 =
        [.date ⟨lastEvening, -18000000000, Expansion.newYork.zone⟩, .broken .range] ∧
      ((Generator.expanding generator).run [.advance, .next]).2.cursor.count = 2 := by
  have runs := run_lastHours
  cases built : build lastHours (.naive lastEvening) Expansion.newYork with
  | error failure =>
      rw [built] at runs
      contradiction
  | ok generator =>
      rw [built] at runs
      obtain ⟨told, counted⟩ := Prod.mk.inj (Except.ok.inj runs)
      exact ⟨generator, rfl, told, counted⟩

theorem count_eq_told_add_unshown_lastHours :
    lastHours.Valid ∧
      ∃ generator, build lastHours (.naive lastEvening) Expansion.newYork = .ok generator ∧
        ((Generator.expanding generator).run [.advance, .next]).2.cursor.count = 1 + 1 ∧
        ((Generator.expanding generator).run [.advance, .next]).2.cursor.count ≤ (3 : Int) := by
  obtain ⟨generator, built, told, _⟩ := exists_build_lastHours
  have valid : lastHours.Valid := by decide
  obtain ⟨counted, within, _⟩ := count_eq_told_add_unshown valid built [.advance, .next]
  rw [told] at counted
  exact ⟨valid, generator, built, counted, within 3 rfl⟩

/-- More dates may be counted than are told. -/
theorem not_forall_count_eq_told :
    ¬ ∀ (rule : Rule) (start : DateTime) (calendar : Calendar) (generator : Expander), rule.Valid →
      build rule start calendar = .ok generator → ∀ requests,
        ((Generator.expanding generator).run requests).2.cursor.count =
          ((Generator.expanding generator).run requests).1.countP Reply.isDate := by
  intro counted
  obtain ⟨generator, built, told, count⟩ := exists_build_lastHours
  have same := counted lastHours (.naive lastEvening) Expansion.newYork generator (by decide) built
    [.advance, .next]
  rw [told, count] at same
  contradiction

end Expander

end Recurrence
