import Recurrence.Proofs.LatestDate
import Recurrence.Proofs.Weekly.Answers
import Recurrence.Proofs.Weekly.Expansion

namespace Recurrence

/-! When the two generators of a weekly rule agree.

In a calendar of one offset that shows the start at a whole second, both hold the same dates to come, the
dates that the rule means.  Each delivers them call after call, so their calls are the same until one of
them leaves the calendar.  If a fraction of a second is shown of the start, the walk keeps it and the
expander drops it, and then they have no date in common: `Generator.calls_eq_or_disjoint`.
-/

variable {rule : Rule} {calendar : Calendar} {start : Moment} {last : Option WallTime}

namespace WeeklyWalk

/-- A walk stands before the selected dates that its cursor has not reached. -/
inductive Awaits (rule : Rule) (calendar : Calendar) (start : Moment) :
    Generator → List Moment → Prop
  | stands {walk : WeeklyWalk} {days : Nat}
      (reads : Reads rule calendar start walk.course walk.filter)
      (stands : Stands rule calendar.firstWeekday start days walk.cursor) :
      Awaits rule calendar start (.weekly walk)
        (rule.ending.cut walk.cursor.count
          (selection rule calendar.firstWeekday start days dayCount))

theorem delivers {generator : Generator} {dates : List Moment}
    (awaits : Awaits rule calendar start generator dates) :
    generator.Delivers (Awaits rule calendar start) dates := by
  cases awaits with
  | @stands walk days reads stands =>
      have advanced : (Generator.weekly walk).advance =
          ((WeeklyWalk.walk walk.course walk.filter (dayCount + 1) walk.cursor).1,
            .weekly { walk with
              cursor := (WeeklyWalk.walk walk.course walk.filter (dayCount + 1) walk.cursor).2 }) := by
        rw [Generator.advance, advance_eq_walk stands.exhausted_eq]
      rcases walk_cases (dayCount + 1) reads stands (by omega) with
        ⟨_, _, _, broken, _⟩ | ⟨finished, exhausted, count, noDates⟩ |
          ⟨date, moved, later, given, behind, count, dates⟩
      · refine .left ?_
        rw [advanced, broken]
        rfl
      · rw [noDates]
        rw [finished] at advanced
        exact .finished advanced count exhausted
          (Generator.advance_weekly_of_exhausted exhausted)
      · rw [dates]
        rw [given] at advanced
        exact .date advanced count behind.exhausted_eq (.stands reads behind)

end WeeklyWalk

namespace Expander

/-- An expander stands before the selected dates that its stream has not given. -/
inductive Awaits (rule : Rule) (calendar : Calendar) (start : Moment) (last : Option WallTime) :
    Generator → List Moment → Prop
  | holds {expander : Expander} {week days : Nat}
      (calendar_eq : expander.course.calendar = calendar)
      (exhausted_eq : expander.cursor.exhausted = false)
      (stream : expander.stream.Awaits rule calendar.firstWeekday start last expander.cursor.count
        week days) :
      Awaits rule calendar start last (.expanding expander)
        (rule.ending.cut expander.cursor.count
          (WeeklyWalk.selection rule calendar.firstWeekday start days dayCount))

theorem delivers {generator : Generator} {dates : List Moment} (positive : 1 ≤ rule.interval)
    (whole : start.wall.microsecond = 0) (bounds : Stream.Bounds rule start last)
    (constant : calendar.zone.constantOffset? = some start.offset)
    (zone_eq : start.zone = calendar.zone)
    (awaits : Awaits rule calendar start last generator dates) :
    generator.Delivers (Awaits rule calendar start last) dates := by
  cases awaits with
  | @holds expander week days calendar_eq exhausted_eq stream =>
      have many : dayCount ≤ Stream.minuteCount := Nat.le_mul_of_pos_right dayCount (by decide)
      have next : expander.stream.next =
          expander.stream.nextWithin (Stream.minuteCount + 1) := by
        rw [Stream.next, stream.ended_eq, if_neg Bool.false_ne_true]
      have gives := Stream.nextWithin_gives (Stream.minuteCount + 1) positive whole bounds stream
        (Nat.le_trans many (by omega))
      rw [← next] at gives
      generalize rule.ending.cut expander.cursor.count
        (WeeklyWalk.selection rule calendar.firstWeekday start days dayCount) = dates at gives ⊢
      generalize stepped : expander.stream.next = step at gives
      cases gives with
      | left =>
          refine .left ?_
          simp only [Generator.advance, advance, exhausted_eq, Bool.false_eq_true, if_false, stepped]
          rfl
      | @finished after =>
          have advanced : (Generator.expanding expander).advance =
              (.finished, .expanding { expander with
                stream := after, cursor := { expander.cursor with exhausted := true } }) := by
            simp only [Generator.advance, advance, exhausted_eq, Bool.false_eq_true, if_false,
              stepped]
          exact .finished advanced rfl rfl (Generator.advance_expanding_of_exhausted rfl)
      | @date date place _ later after inside awaits =>
          have localized : calendar.localize (.naive date.wall) = some date := by
            obtain ⟨_, offset, zone⟩ := WeeklyWalk.candidate_eq_some.1 inside
            change calendar.zone.localize date.wall = some date
            rw [Zone.localize_of_constant constant, ← offset, ← zone_eq, ← zone]
          have advanced : (Generator.expanding expander).advance =
              (.date date, .expanding { expander with
                stream := after
                cursor := { expander.cursor with
                  count := expander.cursor.count + 1, current := date } }) := by
            simp only [Generator.advance, advance, exhausted_eq, Bool.false_eq_true, if_false,
              stepped, calendar_eq, localized]
          exact .date advanced rfl exhausted_eq (.holds calendar_eq exhausted_eq awaits)

/-- Where the last date of a rule is shown in a calendar of one offset, comparing times on its clocks
is comparing instants. -/
theorem bounds_of_begins {begun : DateTime} {course : Course} {cursor : Cursor}
    (begins : Course.Begins rule begun calendar course cursor)
    (constant : calendar.zone.constantOffset? = some cursor.current.offset)
    (endCoherent : ∀ final ∈ rule.ending.date?, final.Coherent) :
    Stream.Bounds rule cursor.current (course.last.map Moment.wall) := by
  intro days date inside
  have offset := (WeeklyWalk.candidate_eq_some.1 inside).2.1
  have shows := begins.shows_last
  cases isDate : rule.ending.date? with
  | none =>
      rw [isDate, Option.map_none, Option.map_eq_none_iff] at shows
      simp [shows]
  | some final =>
      rw [isDate, Option.map_some, Option.map_eq_some_iff] at shows
      obtain ⟨shown, lastIs, showsFinal⟩ := shows
      have coherent : (DateTime.aware final).Coherent := endCoherent final isDate
      have fits := Calendar.fits_of_shown coherent showsFinal.symm
      have sameOffset : shown.offset = date.offset := by
        rw [offset]
        exact fits.coherent.offset_eq (by rw [fits.zone_eq, constant])
      have compare : shown.wall < date.wall ↔ final < date := by
        have sameInstant : (shown.wall.micros : Int) - shown.offset =
            final.wall.micros - final.offset :=
          Calendar.instant_of_shown showsFinal.symm
        rw [Moment.lt_iff, ← sameInstant, sameOffset]
        change shown.wall.micros < date.wall.micros ↔ _
        omega
      simp [lastIs, compare]

/-- The expander of a weekly rule, before its first date. -/
def ofWeekly (rule : Rule) (firstWeekday : Weekday) (course : Course) (cursor : Cursor) : Expander where
  course := course
  cursor := cursor
  stream := .ofPlan
    (.weekly rule cursor.current.truncate (course.last.map Moment.wall) firstWeekday)

/-- An expander is built for a weekly rule where a course begins inside the calendar. -/
theorem build_of_begin? {begun : DateTime} {course : Course} {cursor : Cursor}
    (weekly : rule.frequency = .weekly)
    (alone : ∀ part ∈ rule.restrictions, part = .weekday)
    (beginsAt : Course.begin? rule begun calendar = some (course, cursor)) :
    build rule begun calendar = .ok (ofWeekly rule calendar.firstWeekday course cursor) := by
  have noLeap : rule.seconds.contains 60 = false := by
    have seconds : rule.seconds = [] := Rule.numbers_of_alone alone .second
    rw [seconds]
    rfl
  simp only [build, beginsAt, noLeap, Bool.false_eq_true, if_false, Plan.ofRule_weekly weekly alone]
  rfl

end Expander

namespace WeeklyWalk

/-- In a calendar of one offset the dates of a walk keep the fraction of a second of its start. -/
theorem Walked.microsecond_eq {course : Course} {offset : Int} {date : Moment} {passed : List Moment}
    (constant : course.calendar.zone.constantOffset? = some offset)
    (walked : Walked course start passed date) (begins : start.zone = course.calendar.zone) :
    date.wall.microsecond = start.wall.microsecond := by
  induction walked with
  | nil => rfl
  | @step passed date after before moved ih =>
      obtain ⟨days, _, ahead, _⟩ := shift_of_nextDate moved
      rw [Zone.face, before.zone_eq begins, if_pos (Zone.keeps_of_constant constant)] at ahead
      rw [← ih]
      simp only [WallTime.microsecond, microsPerSecond]
      omega

end WeeklyWalk

namespace Generator

section

variable {begun : DateTime} {course : Course} {cursor : Cursor} {walk : WeeklyWalk} {number : Nat}

/-- From a whole second on, both generators give the dates to come, and these are the same. -/
theorem calls_eq_of_whole (positive : 1 ≤ rule.interval)
    (endCoherent : ∀ final ∈ rule.ending.date?, final.Coherent)
    (begins : Course.Begins rule begun calendar course cursor)
    (reads : WeeklyWalk.Reads rule calendar cursor.current walk.course walk.filter)
    (stands : WeeklyWalk.Stands rule calendar.firstWeekday cursor.current 0 walk.cursor)
    (count : walk.cursor.count = 0) (whole : cursor.current.wall.microsecond = 0)
    (walkInside : (Generator.weekly walk).StaysInside number)
    (expanderInside :
      (expanding (.ofWeekly rule calendar.firstWeekday course cursor)).StaysInside number) :
    (Generator.weekly walk).calls number =
      (expanding (.ofWeekly rule calendar.firstWeekday course cursor)).calls number := by
  have bounds := Expander.bounds_of_begins begins reads.constant endCoherent
  have walkCalls := calls_eq_giving (fun _ _ => WeeklyWalk.delivers)
    (WeeklyWalk.Awaits.stands reads stands) walkInside
  have stream := Stream.awaits_ofPlan rule calendar.firstWeekday cursor.current
    (course.last.map Moment.wall)
  rw [Expander.ofWeekly, Moment.truncate, WallTime.truncate_of_microsecond whole] at expanderInside ⊢
  rw [← begins.count_eq] at stream
  have expanderCalls := calls_eq_giving
    (fun _ _ => Expander.delivers positive whole bounds reads.constant reads.zone_eq)
    (Expander.Awaits.holds begins.calendar_eq begins.exhausted_eq stream) expanderInside
  rw [walkCalls, expanderCalls]
  simp only [Generator.cursor, count, begins.count_eq]

/-- A walk that begins inside a second gives no date of an expander, whose dates have whole seconds. -/
theorem answer_ne_of_fraction {offset : Int} {expander : Expander} {date : Moment} {call other : Call}
    (constant : calendar.zone.constantOffset? = some offset)
    (begins : Course.Begins rule begun calendar walk.course walk.cursor)
    (fraction : walk.cursor.current.wall.microsecond ≠ 0)
    (member : call ∈ (Generator.weekly walk).calls number) (answered : call.answer = .date date)
    (memberOther : other ∈ (expanding expander).calls number) : other.answer ≠ .date date := by
  intro same
  obtain ⟨passed, walked⟩ := WeeklyWalk.walked_of_calls member answered
  have kept := walked.microsecond_eq (by rw [begins.calendar_eq, constant])
    (by rw [Calendar.zone_of_shown begins.shows_start, begins.calendar_eq])
  have dropped := (Expander.admits_of_calls memberOther same).2.whole
  exact fraction (kept.symm.trans dropped)

end

/-- In a calendar of one offset, let a rule be weekly and restrict no part but weekdays.  If its start is
shown at a whole second, the two generators of the rule give the same answers, counts and exhaustion in
every number of calls in which neither leaves the calendar; if not, neither gives a date that the other
one gives.  Where one cannot begin inside the calendar, the other cannot either. -/
theorem calls_eq_or_disjoint {begun : DateTime} {offset : Int} (valid : rule.Valid)
    (weekly : rule.frequency = .weekly)
    (alone : ∀ part ∈ rule.restrictions, part = .weekday)
    (constant : calendar.zone.constantOffset? = some offset) (coherent : begun.Coherent)
    (endCoherent : ∀ final ∈ rule.ending.date?, final.Coherent) :
    WeeklyWalk.build rule begun calendar = .error .outOfRange ∧
      Expander.build rule begun calendar = .error .outOfRange ∨
    ∃ shown walk expander, calendar.localize begun = some shown ∧
      WeeklyWalk.build rule begun calendar = .ok walk ∧
      Expander.build rule begun calendar = .ok expander ∧
      (shown.wall.microsecond = 0 → ∀ number, (Generator.weekly walk).StaysInside number →
        (expanding expander).StaysInside number →
          (Generator.weekly walk).calls number = (expanding expander).calls number) ∧
      (shown.wall.microsecond ≠ 0 → ∀ number date, ∀ call ∈ (Generator.weekly walk).calls number,
        call.answer = .date date →
          ∀ other ∈ (expanding expander).calls number, other.answer ≠ .date date) := by
  cases beginsAt : Course.begin? rule begun calendar with
  | none =>
      refine .inl ⟨?_, ?_⟩
      · simp [WeeklyWalk.build, weekly, beginsAt]
      · simp [Expander.build, beginsAt]
  | some pair =>
      obtain ⟨course, cursor⟩ := pair
      have begins := Course.begins_of_begin? beginsAt
      obtain ⟨walk, walkBuilt, reads, stands, count⟩ :=
        WeeklyWalk.build_of_begin? valid weekly coherent constant beginsAt
      have expanderBuilt := Expander.build_of_begin? weekly alone beginsAt
      refine .inr ⟨cursor.current, walk, _, begins.shows_start, walkBuilt, expanderBuilt, ?_, ?_⟩
      · intro whole number walkInside expanderInside
        exact calls_eq_of_whole valid.1 endCoherent begins reads stands count whole walkInside
          expanderInside
      · intro fraction number date call member answered other memberOther
        have walkBegins := WeeklyWalk.begins_of_build walkBuilt
        have current : walk.cursor.current = cursor.current :=
          Option.some.inj (walkBegins.shows_start.symm.trans begins.shows_start)
        rw [← current] at fraction
        exact answer_ne_of_fraction constant walkBegins fraction member answered memberOther

/-- Three dates on Mondays and Wednesdays of every other week.  In a weekly rule the ordinal of an
entry asks for nothing. -/
def everyOtherWeek : Rule where
  frequency := .weekly
  interval := 2
  ending := .afterCount 3
  weekdays := [⟨some 1, .monday⟩, ⟨none, .wednesday⟩]

def everyOtherCourse : Course := ⟨{}, 2, .afterCount 3, none⟩

def everyOtherWalk : WeeklyWalk where
  course := everyOtherCourse
  cursor := ⟨WeeklyWalk.mondayStart, 0, false⟩
  filter := ⟨everyOtherWeek.weekdays, false⟩

def everyOtherExpander : Expander where
  course := everyOtherCourse
  cursor := ⟨WeeklyWalk.mondayStart, 0, false⟩
  stream := .ofPlan (.weekly everyOtherWeek WeeklyWalk.mondayStart none .monday)

theorem begin?_everyOtherWeek :
    Course.begin? everyOtherWeek (.naive WeeklyWalk.mondayStart.wall) {} =
      some (everyOtherCourse, ⟨WeeklyWalk.mondayStart, 0, false⟩) := rfl

theorem calls_everyOtherWeek :
    (weekly everyOtherWalk).StaysInside 4 ∧ (expanding everyOtherExpander).StaysInside 4 ∧
      (weekly everyOtherWalk).calls 4 = (expanding everyOtherExpander).calls 4 := by
  have walkBuilt : WeeklyWalk.build everyOtherWeek (.naive WeeklyWalk.mondayStart.wall) {} =
      .ok everyOtherWalk := rfl
  have expanderBuilt : Expander.build everyOtherWeek (.naive WeeklyWalk.mondayStart.wall) {} =
      .ok everyOtherExpander :=
    Expander.build_of_begin? rfl (by decide) begin?_everyOtherWeek
  have walkInside : (weekly everyOtherWalk).StaysInside 4 := by decide +kernel
  have expanderInside : (expanding everyOtherExpander).StaysInside 4 := by decide +kernel
  refine ⟨walkInside, expanderInside, ?_⟩
  rcases @calls_eq_or_disjoint everyOtherWeek {} (.naive WeeklyWalk.mondayStart.wall) 0
    (by decide) rfl (by decide) rfl (DateTime.coherent_naive _) nofun with
    ⟨failed, _⟩ | ⟨shown, walk, expander, shows, isWalk, isExpander, agree, _⟩
  · rw [walkBuilt] at failed
    contradiction
  · obtain rfl := Except.ok.inj (walkBuilt.symm.trans isWalk)
    obtain rfl := Except.ok.inj (expanderBuilt.symm.trans isExpander)
    obtain rfl := Option.some.inj shows
    exact agree (by decide) 4 walkInside expanderInside

def everyWeek : Rule := { frequency := .weekly }

/-- At 09:00 on 1 January 2024, on a clock that is a fraction of a second ahead of UTC. -/
def fractionStart : Moment := ⟨WeeklyWalk.mondayStart.wall, 234375, .fixed 234375 none 0⟩

def fractionCursor : Cursor := ⟨⟨⟨63839696399765625, by decide⟩, 0, .utc⟩, 0, false⟩

def fractionWalk : WeeklyWalk := ⟨⟨{}, 1, .never, none⟩, fractionCursor, ⟨[.every .monday], false⟩⟩

def fractionExpander : Expander where
  course := ⟨{}, 1, .never, none⟩
  cursor := fractionCursor
  stream := .ofPlan (.weekly everyWeek fractionCursor.current.truncate none .monday)

/-- A start at a whole second is not always shown at one, and then the first date of the walk has the
fraction, and that of the expander has not. -/
theorem not_forall_calls_agree :
    ¬ ∀ (rule : Rule) (calendar : Calendar) (begun : DateTime) (offset : Int) (walk : WeeklyWalk)
      (expander : Expander) (number : Nat), rule.Valid → rule.frequency = .weekly →
        (∀ part ∈ rule.restrictions, part = .weekday) →
          calendar.zone.constantOffset? = some offset → begun.Coherent →
            (∀ final ∈ rule.ending.date?, final.Coherent) → begun.wall.microsecond = 0 →
              WeeklyWalk.build rule begun calendar = .ok walk →
                Expander.build rule begun calendar = .ok expander →
                  (weekly walk).StaysInside number → (expanding expander).StaysInside number →
                    (weekly walk).calls number = (expanding expander).calls number := by
  intro agree
  have expanderBuilt : Expander.build everyWeek (.aware fractionStart) {} = .ok fractionExpander :=
    Expander.build_of_begin? rfl (by decide) rfl
  have same := agree everyWeek {} (.aware fractionStart) 0 fractionWalk fractionExpander 1 (by decide) rfl
    (by decide) rfl (Zone.coherent_of_clock rfl) nofun (by decide) rfl expanderBuilt (by decide +kernel)
    (by decide +kernel)
  exact absurd same (by decide +kernel)

end Generator

end Recurrence
