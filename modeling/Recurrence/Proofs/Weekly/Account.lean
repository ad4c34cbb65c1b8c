import Recurrence.Proofs.Weekly.Walk

namespace Recurrence

/-! The account that a weekly generator keeps over its calls.

A walk ends in one of three ways and changes its cursor in no other (`WeeklyWalk.Outcome`).  So the count
is the number of dates told, an end is final, and a call that breaks off leaves the cursor at the date
from which no step leads on, where every later call breaks off again (`WeeklyWalk.keeps_account`).
-/

def Reply.isDate : Reply → Bool
  | .date _ => true
  | _ => false

theorem Answer.reply_injective (request : Request) :
    Function.Injective fun answer : Answer => answer.reply request := by
  intro first second same
  cases request <;> cases first <;> cases second <;> simp_all [reply]

namespace Generator

/-- The replies to requests made one after another, and the generator behind them. -/
def run : Generator → List Request → List Reply × Generator
  | generator, [] => ([], generator)
  | generator, request :: rest =>
      let told := generator.reply request
      let later := run told.2 rest
      (told.1 :: later.1, later.2)

/-- Every request from now on is told the same answer and changes nothing. -/
def Stays (generator : Generator) (answer : Answer) : Prop :=
  ∀ requests, generator.run requests = (requests.map answer.reply, generator)

theorem stays_of_advance {generator : Generator} {answer : Answer}
    (same : generator.advance = (answer, generator)) : generator.Stays answer := by
  intro requests
  induction requests with
  | nil => rfl
  | cons request rest ih => simp only [run, reply, same, ih, List.map_cons]

end Generator

namespace WeeklyWalk

/-- How a walk ends: at a date that it gives out, behind the last one, or at a date from which no step
leads on. -/
inductive Outcome (course : Course) (cursor : Cursor) : Answer × Cursor → Prop
  | date (date : Moment) (moved : Cursor) : Outcome course cursor (.date date, moved)
  | finished (date : Moment) :
      Outcome course cursor (.finished, { cursor with current := date, exhausted := true })
  | broken {passed : List Moment} {date : Moment} {fault : RangeFault}
      (walked : Walked course cursor.current passed date)
      (unfinished : course.reachedEnd { cursor with current := date } = false)
      (unmoved : nextDate course date = .error fault) :
      Outcome course cursor (.broken (.outOfRange fault), { cursor with current := date })

variable {course : Course} {filter : WeekdayFilter} {cursor : Cursor} {after : Moment}

theorem Outcome.behind {result : Answer × Cursor} (moved : nextDate course cursor.current = .ok after)
    (outcome : Outcome course { cursor with current := after } result) :
    Outcome course cursor result := by
  cases outcome with
  | date date reached => exact .date date reached
  | finished date => exact .finished date
  | broken walked unfinished unmoved =>
      exact .broken ((Walked.nil.step moved).trans walked) unfinished unmoved

/-- A date from which a step leads on is shown in the calendar, so the filter can judge it. -/
theorem matches_of_nextDate {date : Moment} (moved : nextDate course date = .ok after) :
    ∃ accepted, filter.matches course.calendar (.aware date) = some accepted := by
  unfold nextDate Calendar.isLastWeekday Calendar.weekday at moved
  cases shows : course.calendar.localize (.aware date) with
  | none =>
      rw [shows] at moved
      contradiction
  | some shown => exact ⟨_, by rw [WeekdayFilter.matches, shows]; rfl⟩

theorem day_lt_of_nextDate {date : Moment} (positive : 1 ≤ course.interval)
    (fits : course.calendar.Fits date) (moved : nextDate course date = .ok after) :
    date.wall.day < after.wall.day ∧ course.calendar.Fits after := by
  obtain ⟨days, forward, ahead, read⟩ := eq_of_nextDate positive moved
  have kept := fits.wall_le_face
  refine ⟨?_, Calendar.fits_of_localize read⟩
  simp only [WallTime.day, microsPerDay]
  omega

/-- A walk never runs out of the days that it may take. -/
theorem outcome_of_walk (positive : 1 ≤ course.interval) {days : Nat}
    (fits : course.calendar.Fits cursor.current)
    (enough : dayCount ≤ cursor.current.wall.day + days) :
    Outcome course cursor (walk course filter days cursor) := by
  -- Every step reaches a later day, so the days left in the calendar bound the steps left.
  induction days generalizing cursor with
  | zero => exact absurd cursor.current.wall.day_lt (Nat.not_lt.mpr enough)
  | succ days ih =>
      rw [walk]
      cases ended : course.reachedEnd cursor with
      | true => exact .finished _
      | false =>
          rw [if_neg Bool.false_ne_true]
          cases moved : nextDate course cursor.current with
          | error fault => exact .broken .nil ended moved
          | ok after =>
              obtain ⟨accepted, judged⟩ := @matches_of_nextDate course filter _ _ moved
              simp only [judged]
              cases accepted with
              | true => exact .date _ _
              | false =>
                  obtain ⟨forward, fitsAfter⟩ := day_lt_of_nextDate positive fits moved
                  have left : dayCount ≤ after.wall.day + days := by omega
                  exact (ih fitsAfter left).behind moved

/-- What holds of a weekly generator between its calls. -/
structure Sound (ending : Ending) (generator : WeeklyWalk) : Prop where
  positive : 1 ≤ generator.course.interval
  ending_eq : generator.course.ending = ending
  fits : generator.course.calendar.Fits generator.cursor.current
  within : ∀ count, ending = .afterCount count → (generator.cursor.count : Int) ≤ count

/-- How a call ends.  Behind an end and behind a failure every later call is answered alike. -/
inductive Called (generator : WeeklyWalk) : Prop
  | date {date : Moment} {later : WeeklyWalk} (answered : generator.advance = (.date date, later)) :
      Called generator
  | finished {later : WeeklyWalk} (answered : generator.advance = (.finished, later))
      (count_eq : later.cursor.count = generator.cursor.count)
      (again : later.advance = (.finished, later)) : Called generator
  | broken {later : WeeklyWalk} {passed : List Moment} {fault : RangeFault}
      (answered : generator.advance = (.broken (.outOfRange fault), later))
      (count_eq : later.cursor.count = generator.cursor.count)
      (exhausted_eq : later.cursor.exhausted = generator.cursor.exhausted)
      (walked : Walked generator.course generator.cursor.current passed later.cursor.current)
      (unmoved : nextDate generator.course later.cursor.current = .error fault)
      (again : later.advance = (.broken (.outOfRange fault), later)) : Called generator

variable {ending : Ending} {generator : WeeklyWalk}

theorem Sound.called (sound : Sound ending generator) : Called generator := by
  cases exhausted : generator.cursor.exhausted with
  | true =>
      have answered := advance_of_exhausted exhausted
      exact .finished answered rfl answered
  | false =>
      have outcome := @outcome_of_walk generator.course generator.filter generator.cursor
        sound.positive (dayCount + 1) sound.fits (by omega)
      have answered := advance_eq_walk exhausted
      generalize walk generator.course generator.filter (dayCount + 1) generator.cursor = result at *
      cases outcome with
      | date date moved => exact .date answered
      | finished date => exact .finished answered rfl rfl
      | @broken passed date fault walked unfinished unmoved =>
          refine .broken answered rfl rfl walked unmoved (Eq.trans (advance_eq_walk ?_) ?_)
          · exact exhausted
          · simp only [walk, unfinished, Bool.false_eq_true, if_false, unmoved]

/-- A date that is given out is counted, and fewer than are wanted are counted before it. -/
theorem walk_counts {days : Nat} {date : Moment} {moved : Cursor}
    (answered : walk course filter days cursor = (.date date, moved)) :
    moved.count = cursor.count + 1 ∧
      ∀ count, course.ending = .afterCount count → (cursor.count : Int) < count := by
  induction days generalizing cursor with
  | zero => cases answered
  | succ days ih =>
      unfold walk at answered
      split at answered
      · cases answered
      · next unfinished =>
          split at answered
          · cases answered
          · split at answered
            · cases answered
            · cases answered
              refine ⟨rfl, fun count isCount => Int.not_le.mp fun all => unfinished ?_⟩
              simp [Course.reachedEnd, isCount, Ending.count?, all]
            · have counts := ih answered
              exact counts

theorem advance_counts {later : WeeklyWalk} {date : Moment}
    (answered : generator.advance = (.date date, later)) :
    later.cursor.count = generator.cursor.count + 1 ∧
      ∀ count, generator.course.ending = .afterCount count →
        (generator.cursor.count : Int) < count := by
  unfold advance at answered
  split at answered
  · cases answered
  · obtain ⟨isDate, rfl⟩ := Prod.mk.inj answered
    exact walk_counts (Prod.ext isDate rfl)

theorem Sound.advance (sound : Sound ending generator) : Sound ending generator.advance.2 := by
  obtain ⟨same, passed, walked⟩ := walked_of_advance generator
  have fits := walked.fits sound.fits
  rw [← same] at fits
  refine ⟨by rw [same]; exact sound.positive, by rw [same]; exact sound.ending_eq, fits, ?_⟩
  intro count isCount
  have before := sound.within count isCount
  cases sound.called with
  | date answered =>
      obtain ⟨count_eq, fewer⟩ := advance_counts answered
      have less := fewer count (sound.ending_eq.trans isCount)
      rw [answered, count_eq]
      omega
  | finished answered count_eq _ =>
      rw [answered, count_eq]
      exact before
  | broken answered count_eq _ _ _ _ =>
      rw [answered, count_eq]
      exact before

theorem sound_of_build {rule : Rule} {start : DateTime} {calendar : Calendar} (valid : rule.Valid)
    (coherent : start.Coherent) (built : build rule start calendar = .ok generator) :
    Sound rule.ending generator := by
  have begins := begins_of_build built
  refine ⟨?_, begins.ending_eq, ?_, fun count isCount => ?_⟩
  · rw [begins.interval_eq]
    exact valid.1
  · rw [begins.calendar_eq]
    exact Calendar.fits_of_shown coherent begins.shows_start
  · rw [begins.count_eq]
    exact Int.le_of_lt (valid.one_le_count isCount)

/-- A call adds a date that it tells to the count, and nothing else. -/
theorem Sound.count_advance (sound : Sound ending generator) (request : Request) :
    generator.advance.2.cursor.count =
      generator.cursor.count + [generator.advance.1.reply request].countP Reply.isDate := by
  cases sound.called with
  | date answered =>
      rw [answered, (advance_counts answered).1]
      rfl
  | finished answered count_eq _ =>
      rw [answered, count_eq]
      cases request <;> rfl
  | broken answered count_eq _ _ _ _ =>
      rw [answered, count_eq]
      rfl

theorem Sound.run (sound : Sound ending generator) (requests : List Request) :
    ∃ later, ((Generator.weekly generator).run requests).2 = .weekly later ∧ Sound ending later ∧
      later.cursor.count = generator.cursor.count +
        ((Generator.weekly generator).run requests).1.countP Reply.isDate := by
  induction requests generalizing generator with
  | nil => exact ⟨generator, rfl, sound, rfl⟩
  | cons request rest ih =>
      obtain ⟨later, reached, soundLater, count_eq⟩ := ih sound.advance
      refine ⟨later, reached, soundLater, ?_⟩
      have split : ((Generator.weekly generator).run (request :: rest)).1 =
          [generator.advance.1.reply request] ++
            ((Generator.weekly generator.advance.2).run rest).1 := rfl
      rw [count_eq, sound.count_advance request, split, List.countP_append]
      omega

end WeeklyWalk

/-- A call has broken off.  It has changed nothing but the date at which the cursor stands.  No step leads
on from that date, and every later call is told so. -/
structure Generator.BrokeOff (before later : Generator) (breakdown : Breakdown) : Prop where
  count_eq : later.cursor.count = before.cursor.count
  exhausted_eq : later.cursor.exhausted = before.cursor.exhausted
  walked : ∃ passed, WeeklyWalk.Walked before.course before.cursor.current passed later.cursor.current
  unmoved : ∃ fault, breakdown = .outOfRange fault ∧
    WeeklyWalk.nextDate before.course later.cursor.current = .error fault
  stays : later.Stays (.broken breakdown)

namespace WeeklyWalk

variable {ending : Ending} {generator : WeeklyWalk}

theorem Sound.stays_finished (sound : Sound ending generator)
    (finished : generator.advance.1 = .finished) :
    (Generator.weekly generator.advance.2).Stays .finished := by
  cases sound.called with
  | date answered =>
      rw [answered] at finished
      contradiction
  | finished answered _ again =>
      rw [answered]
      exact Generator.stays_of_advance (by simp only [Generator.advance, again])
  | broken answered _ _ _ _ _ =>
      rw [answered] at finished
      contradiction

theorem Sound.brokeOff (sound : Sound ending generator) {breakdown : Breakdown}
    (broken : generator.advance.1 = .broken breakdown) :
    (Generator.weekly generator).BrokeOff (.weekly generator.advance.2) breakdown := by
  cases sound.called with
  | date answered =>
      rw [answered] at broken
      contradiction
  | finished answered _ _ =>
      rw [answered] at broken
      contradiction
  | @broken later passed fault answered count_eq exhausted_eq walked unmoved again =>
      rw [answered] at broken ⊢
      cases broken
      exact ⟨count_eq, exhausted_eq, ⟨passed, walked⟩, ⟨fault, rfl, unmoved⟩,
        Generator.stays_of_advance (by simp only [Generator.advance, again])⟩

/-- Whatever was asked of a weekly generator: its count is the number of dates told and never exceeds the
number of dates wanted.  Once it is told that no date is left, that stays so and nothing changes.  A
call that breaks off keeps the count, and every later call breaks off again. -/
theorem keeps_account {rule : Rule} {start : DateTime} {calendar : Calendar} (valid : rule.Valid)
    (coherent : start.Coherent) (built : build rule start calendar = .ok generator)
    (requests : List Request) :
    let told := (Generator.weekly generator).run requests
    told.2.cursor.count = told.1.countP Reply.isDate ∧
      (∀ count, rule.ending = .afterCount count → (told.2.cursor.count : Int) ≤ count) ∧
      ∀ request,
        ((told.2.reply request).1 = Answer.finished.reply request →
          (told.2.reply request).2.Stays .finished) ∧
        ∀ breakdown, (told.2.reply request).1 = .broken breakdown →
          told.2.BrokeOff (told.2.reply request).2 breakdown := by
  intro told
  obtain ⟨later, reached, sound, count_eq⟩ := (sound_of_build valid coherent built).run requests
  rw [(begins_of_build built).count_eq, Nat.zero_add] at count_eq
  change told.2 = .weekly later at reached
  rw [reached]
  refine ⟨count_eq, sound.within, fun request => ⟨fun finished => ?_, fun breakdown broken => ?_⟩⟩
  · exact sound.stays_finished (Answer.reply_injective request finished)
  · exact sound.brokeOff (Answer.reply_injective request broken)

/-- 29 December 9999 at 09:00, a Wednesday. -/
def yearEnd : Moment := ⟨⟨315537670800000000, by decide⟩, 0, .utc⟩

def wednesdays (count : Int) : Rule := { frequency := .weekly, ending := .afterCount count }

def wednesdaysWalk (count : Int) : WeeklyWalk :=
  ⟨⟨{}, 1, .afterCount count, none⟩, ⟨yearEnd, 0, false⟩, ⟨[.every .wednesday], false⟩⟩

/-- The last Wednesday is told and counted.  If one date is wanted, an end follows it.  If three are, the
next call breaks off at the last day. -/
theorem keeps_account_wednesdays :
    (wednesdays 1).Valid ∧ (wednesdays 3).Valid ∧
      (∀ count, build (wednesdays count) (.naive yearEnd.wall) {} = .ok (wednesdaysWalk count)) ∧
      ((Generator.weekly (wednesdaysWalk 1)).run [.next]).2.cursor.count = 1 ∧
      ((Generator.weekly (wednesdaysWalk 1)).run [.next, .advance]).2.Stays .finished ∧
      ((Generator.weekly (wednesdaysWalk 3)).run [.next]).2.BrokeOff
        ((Generator.weekly (wednesdaysWalk 3)).run [.next, .advance]).2 .range := by
  have built (count : Int) :
      build (wednesdays count) (.naive yearEnd.wall) {} = .ok (wednesdaysWalk count) := rfl
  have one : (wednesdays 1).Valid := by decide
  have three : (wednesdays 3).Valid := by decide
  have coherent := DateTime.coherent_naive yearEnd.wall
  have told : ((Generator.weekly (wednesdaysWalk 1)).run [.next]).1 = [.date yearEnd] := by
    decide +kernel
  obtain ⟨counted, _, finishes⟩ := keeps_account one coherent (built 1) [.next]
  obtain ⟨_, _, breaks⟩ := keeps_account three coherent (built 3) [.next]
  rw [told] at counted
  refine ⟨one, three, built, counted, (finishes .advance).1 ?_, (breaks .advance).2 .range ?_⟩
  · decide +kernel
  · decide +kernel

end WeeklyWalk

end Recurrence
