import Recurrence.Proofs.Rule.Agreement
import Recurrence.Proofs.Weekly.Weeks
import Recurrence.Proofs.Zone.Fraction

namespace Recurrence

/-! The expansion of a weekly rule, week by week.

The plan of a weekly rule that restricts weekdays alone has one time of day, that of the start.  A
stream of the plan holds the wanted days that are left of a week (`weekDays`) and enters the next
active week behind them, so every call of it gives the first of the selected dates still to come:
`Stream.nextWithin_gives`.
-/

theorem Ending.allows_iff {ending : Ending} {given : Nat} {date : Moment} :
    ending.Allows given date ↔
      (∀ count ∈ ending.count?, (given : Int) < count) ∧ ∀ last ∈ ending.date?, date ≤ last := by
  cases ending <;> simp [Allows, count?, date?]

theorem Rule.numbers_of_alone {rule : Rule} (alone : ∀ part ∈ rule.restrictions, part = .weekday)
    (part : Part) : rule.numbers part = [] := by
  cases restricted : rule.restricts part with
  | true =>
      rw [alone part (List.mem_filter.2 ⟨part.mem_all, restricted⟩)]
      rfl
  | false => exact Rule.numbers_eq_nil restricted

/-- The plan of a weekly rule that restricts no part but weekdays. -/
def Plan.weekly (rule : Rule) (start : Moment) (last : Option WallTime) (firstWeekday : Weekday) :
    Plan where
  frequency := .weekly
  interval := rule.interval.toNat
  firstWeekday := firstWeekday
  start := start.wall
  last := last
  count := rule.ending.count?
  positions := []
  months := []
  monthDays := []
  yearDays := []
  weeks := []
  weekdays := WeeklyWalk.wanted rule start
  nthWeekdays := []
  hours := [start.wall.hour]
  minutes := [start.wall.minute]
  seconds := [start.wall.second]

variable {rule : Rule} {start : Moment} {last : Option WallTime} {firstWeekday : Weekday}
  {first count days given : Nat} {stream : Stream}

theorem Plan.ofRule_weekly (weekly : rule.frequency = .weekly)
    (alone : ∀ part ∈ rule.restrictions, part = .weekday) :
    ofRule rule start.wall last firstWeekday =
      some (.weekly rule start.truncate last firstWeekday) := by
  have seconds : rule.seconds = [] := Rule.numbers_of_alone alone .second
  have minutes : rule.minutes = [] := Rule.numbers_of_alone alone .minute
  have hours : rule.hours = [] := Rule.numbers_of_alone alone .hour
  have monthDays : rule.monthDays = [] := Rule.numbers_of_alone alone .monthDay
  have yearDays : rule.yearDays = [] := Rule.numbers_of_alone alone .yearDay
  have weeks : rule.weeks = [] := Rule.numbers_of_alone alone .week
  have months : rule.months = [] := Rule.numbers_of_alone alone .month
  have positions : rule.positions = [] := Rule.numbers_of_alone alone .position
  have weekdays : weekdaysOf rule start.wall.truncate = WeeklyWalk.wanted rule start.truncate := by
    have whole : rule.weekdays.filter (fun _ => true) = rule.weekdays :=
      List.filter_eq_self.2 fun _ _ => rfl
    simp [weekdaysOf, leavesDaysOpen, WeeklyWalk.wanted, Moment.truncate, weekly, monthDays, yearDays, weeks,
      Frequency.countsWeekdays, whole]
  simp [ofRule, Plan.weekly, Moment.truncate, hoursOf, minutesOf, secondsOf,
    monthsOf, monthDaysOf, nthWeekdaysOf, weekdays, weekly, seconds, minutes, hours, monthDays,
    yearDays, weeks, months, positions, ordered, Frequency.withinDay, Frequency.countsWeekdays]

namespace Plan

variable {plan : Plan} {day second : Nat} {rest : List Nat} {others : List DayTimes}

theorem seek_outside {first : DayTimes} (outside : dayCount ≤ first.day) :
    plan.seek (first :: others) = .outside := by
  rw [seek, if_pos outside]

theorem seek_cons {times : List Nat} (inside : day < dayCount) :
    plan.seek (⟨day, times⟩ :: others) =
      match plan.seekOn day others times with
      | .nothing => plan.seek others
      | sought => sought := by
  cases sought : plan.seekOn day others times <;> rw [seek, if_neg (Nat.not_le.2 inside), sought]

theorem seek_emptied (inside : day < dayCount) :
    plan.seek (⟨day, []⟩ :: others) = plan.seek others := by
  rw [seek_cons inside, seekOn]

theorem seekOn_judged {sought : Sought} {made : Option WallTime}
    (isMade : WallTime.ofSeconds? (day * 86400 + second) = made)
    (judged : plan.judge (⟨day, rest⟩ :: others) made = some sought) :
    plan.seekOn day others (second :: rest) = sought := by
  rw [seekOn, isMade, judged, Option.getD_some]

variable {time : WallTime}

theorem judge_behind (behind : plan.last.any (fun last => decide (last < time)) = true) :
    plan.judge others (some time) = some .passed := by
  rw [judge, if_pos behind]

theorem judge_within (within : plan.last.any (fun last => decide (last < time)) = false)
    (reached : ¬time < plan.start) : plan.judge others (some time) = some (.found time others) := by
  rw [judge, within, if_neg Bool.false_ne_true, if_neg reached]

end Plan

namespace WeeklyWalk

/-- The wanted days among some days after a start, each with the time of the start. -/
def weekDays (rule : Rule) (start : Moment) (first count : Nat) : List DayTimes :=
  ((List.range' (start.wall.day + first) count).filter fun day =>
    (wanted rule start).contains (Weekday.ofDay day)).map fun day =>
      ⟨day, [start.wall.secondOfDay]⟩

theorem selection_cons {last : Nat} (less : first < last) :
    selection rule firstWeekday start first last =
      (selected rule firstWeekday start first).toList ++
        selection rule firstWeekday start (first + 1) last := by
  have one : selection rule firstWeekday start first (first + 1) =
      (selected rule firstWeekday start first).toList := by
    rw [selection, Nat.add_sub_cancel_left, List.range'_one]
    cases found : selected rule firstWeekday start first <;> simp [found]
  rw [selection_append (Nat.le_succ first) less, one]

/-- What a search among the days of a week finds. -/
inductive FindsInWeek (rule : Rule) (firstWeekday : Weekday) (start : Moment) (plan : Plan)
    (first last : Nat) : Sought → Prop
  | outside : FindsInWeek rule firstWeekday start plan first last .outside
  | nothing (noDates : selection rule firstWeekday start first last = []) :
      FindsInWeek rule firstWeekday start plan first last .nothing
  | passed {days : Nat} {date : Moment} (reached : first ≤ days)
      (before : selection rule firstWeekday start first days = [])
      (inside : candidate start days = some date)
      (behind : plan.last.any (fun last => decide (last < date.wall)) = true) :
      FindsInWeek rule firstWeekday start plan first last .passed
  | found {days : Nat} {date : Moment} {rest : List DayTimes} (reached : first ≤ days)
      (less : days < last) (before : selection rule firstWeekday start first days = [])
      (isSelected : selected rule firstWeekday start days = some date)
      (within : plan.last.any (fun last => decide (last < date.wall)) = false)
      (resumes : plan.seek rest = plan.seek (weekDays rule start (days + 1) (last - (days + 1)))) :
      FindsInWeek rule firstWeekday start plan first last (.found date.wall rest)

theorem FindsInWeek.after_unselected {plan : Plan} {last : Nat} {sought : Sought}
    (unselected : selected rule firstWeekday start first = none) (less : first < last)
    (finds : FindsInWeek rule firstWeekday start plan (first + 1) last sought) :
    FindsInWeek rule firstWeekday start plan first last sought := by
  have same {upTo : Nat} (inside : first < upTo) : selection rule firstWeekday start first upTo =
      selection rule firstWeekday start (first + 1) upTo := by
    rw [selection_cons inside, unselected]
    rfl
  cases finds with
  | outside => exact .outside
  | nothing noDates => exact .nothing ((same less).trans noDates)
  | passed reached before inside behind =>
      exact .passed (Nat.le_of_succ_le reached) ((same reached).trans before) inside behind
  | found reached lessLast before isSelected within resumes =>
      exact .found (Nat.le_of_succ_le reached) lessLast ((same reached).trans before) isSelected
        within resumes

theorem ofSeconds?_candidate {date : Moment} (whole : start.wall.microsecond = 0)
    (inside : candidate start days = some date) :
    WallTime.ofSeconds? ((start.wall.day + days) * 86400 + start.wall.secondOfDay) =
      some date.wall := by
  have micros := (candidate_eq_some.1 inside).1
  simp only [WallTime.microsecond, microsPerSecond] at whole
  simp only [WallTime.ofSeconds?, WallTime.ofMicros?_eq_some, WallTime.day, WallTime.secondOfDay,
    WallTime.seconds, microsPerDay, microsPerSecond]
  omega

theorem weekday_candidate {date : Moment} (inside : candidate start days = some date) :
    Weekday.ofDay (start.wall.day + days) = date.wall.weekday := by
  have micros := (candidate_eq_some.1 inside).1
  have day : start.wall.day + days = date.wall.day := by
    simp only [WallTime.day, microsPerDay]
    omega
  rw [day]
  rfl

/-- A search among the wanted days of an active week finds the first selected date, if any. -/
theorem finds_weekDays {plan : Plan} (whole : start.wall.microsecond = 0)
    (starts : plan.start = start.wall)
    (active : ∀ between, first ≤ between → between < first + count →
      isActive rule.interval firstWeekday start between = true) :
    FindsInWeek rule firstWeekday start plan first (first + count)
      (plan.seek (weekDays rule start first count)) := by
  induction count generalizing first with
  | zero => exact .nothing (selection_eq_nil fun _ _ _ => by omega)
  | succ count ih =>
      have last_eq : first + (count + 1) = first + 1 + count := by omega
      have rest : FindsInWeek rule firstWeekday start plan (first + 1) (first + (count + 1))
          (plan.seek (weekDays rule start (first + 1) count)) := by
        rw [last_eq]
        exact ih fun between after before => active between (by omega) (by omega)
      have isActive_first := active first (Nat.le_refl _) (by omega)
      rw [weekDays, List.range'_succ, Nat.add_assoc, List.filter_cons]
      cases inside : candidate start first with
      | none =>
          have outside : dayCount ≤ start.wall.day + first := candidate_eq_none.1 inside
          split
          · rw [List.map_cons, Plan.seek_outside outside]
            exact .outside
          · have unselected : selected rule firstWeekday start first = none := by
              rw [selected, inside, Option.filter_none]
            exact rest.after_unselected unselected (by omega)
      | some date =>
          have inCalendar : start.wall.day + first < dayCount :=
            candidate_isSome.1 (Option.isSome_iff_exists.2 ⟨date, inside⟩)
          have isTime := ofSeconds?_candidate whole inside
          have notBefore : ¬date.wall < plan.start := by
            have micros := (candidate_eq_some.1 inside).1
            rw [starts]
            change ¬date.wall.micros < start.wall.micros
            omega
          have empty : selection rule firstWeekday start first first = [] :=
            selection_eq_nil fun _ _ _ => by omega
          rw [weekday_candidate inside]
          split
          · next isWanted =>
              have isSelected := selected_eq_some.2 ⟨inside, isActive_first, isWanted⟩
              have left : first + (count + 1) - (first + 1) = count := by omega
              rw [List.map_cons]
              cases behind : plan.last.any fun last => decide (last < date.wall) with
              | true =>
                  rw [Plan.seek_cons inCalendar, Plan.seekOn_judged isTime (Plan.judge_behind behind)]
                  exact .passed (Nat.le_refl _) empty inside behind
              | false =>
                  rw [Plan.seek_cons inCalendar,
                    Plan.seekOn_judged isTime (Plan.judge_within behind notBefore)]
                  refine .found (Nat.le_refl _) (by omega) empty isSelected behind ?_
                  rw [Plan.seek_emptied inCalendar, left]
                  rfl
          · next unwanted =>
              have unselected : selected rule firstWeekday start first = none :=
                selected_eq_none inside (Bool.eq_false_iff.2 unwanted)
              exact rest.after_unselected unselected (by omega)

theorem wanted_ne_nil (rule : Rule) (start : Moment) : wanted rule start ≠ [] := by
  unfold wanted
  cases entries : rule.weekdays <;> simp

end WeeklyWalk

open WeeklyWalk

namespace Plan

theorem times_weekly (day : Nat) :
    (Plan.weekly rule start last firstWeekday).times (.week day) = [start.wall.secondOfDay] := by
  have whole : start.wall.hour * 3600 + start.wall.minute * 60 + start.wall.second =
      start.wall.secondOfDay := by
    simp only [WallTime.hour, WallTime.minute, WallTime.second]
    omega
  simp [times, Plan.weekly, combinations, whole]

theorem acceptsDay_weekly (weekYear : WeekYear) (day : Nat) :
    (Plan.weekly rule start last firstWeekday).acceptsDay weekYear day =
      (wanted rule start).contains (Weekday.ofDay day) := by
  have filled : (wanted rule start).isEmpty = false := by simp [wanted_ne_nil]
  simp [acceptsDay, Plan.weekly, filled]

theorem keptDays_weekly (rule : Rule) (start : Moment) (last : Option WallTime)
    (firstWeekday : Weekday) (first : Nat) :
    ((Plan.weekly rule start last firstWeekday).keptDays
      (.week (start.wall.day + first))).map Prod.fst =
        some ((List.range' (start.wall.day + first) (weekRest firstWeekday start first)).filter
          fun day => (wanted rule start).contains (Weekday.ofDay day)) := by
  have rest : 7 - (Weekday.ofDay (start.wall.day + first)).daysSince firstWeekday =
      weekRest firstWeekday start first := by
    rw [Weekday.daysSince_ofDay_add]
    rfl
  have accepts (weekYear : WeekYear) :
      (Plan.weekly rule start last firstWeekday).acceptsDay weekYear =
        fun day => (wanted rule start).contains (Weekday.ofDay day) :=
    funext (acceptsDay_weekly weekYear)
  have noWeeks : (Plan.weekly rule start last firstWeekday).weeks = [] := rfl
  have begins : (Plan.weekly rule start last firstWeekday).firstWeekday = firstWeekday := rfl
  simp only [keptDays, WeekYear.needsLastYear, noWeeks, List.isEmpty_nil, Bool.not_true,
    Bool.false_and, Bool.false_eq_true, and_false, if_false, Option.map_some, accepts,
    Period.days, Period.span, begins, rest]

theorem next_weekly (positive : 1 ≤ rule.interval) (first : Nat) (skip : Bool) :
    (Plan.weekly rule start last firstWeekday).next (.week (start.wall.day + first)) skip =
      onDay (start.wall.day + nextWeek rule.interval firstWeekday start first) .week := by
  have same : start.wall.day + first + 7 * rule.interval.toNat -
      (Weekday.ofDay (start.wall.day + first)).daysSince firstWeekday =
        start.wall.day + nextWeek rule.interval firstWeekday start first := by
    rw [Weekday.daysSince_ofDay_add, nextWeek, WallTime.weekday]
    omega
  simp only [next, Plan.weekly, same]

end Plan

namespace Ending

/-- The number of dates that a rule still gives when some were given. -/
def left (ending : Ending) (given : Nat) : Option Int :=
  ending.count?.map fun count => count - given

end Ending

namespace Stream

/-- Before some day, a stream of a weekly rule holds the wanted days that are left of the week. -/
structure Awaits (rule : Rule) (firstWeekday : Weekday) (start : Moment) (last : Option WallTime)
    (given first days : Nat) (stream : Stream) : Prop where
  plan_eq : stream.plan = .weekly rule start last firstWeekday
  ended_eq : stream.ended = false
  remaining_eq : stream.remaining = rule.ending.left given
  active : isActive rule.interval firstWeekday start first = true
  reached : first ≤ days
  inWeek : days ≤ first + weekRest firstWeekday start first
  inside : start.wall.day + first < dayCount
  period_eq : stream.period = .week (start.wall.day + first)
  pending : ∃ pending, stream.pending = some pending ∧
    stream.plan.seek pending = stream.plan.seek
      (weekDays rule start days (first + weekRest firstWeekday start first - days))

theorem enter_weekly (planIs : stream.plan = .weekly rule start last firstWeekday) (first : Nat) :
    ∃ skip, stream.enter (.week (start.wall.day + first))
      (stream.plan.times (.week (start.wall.day + first))) =
        { stream with
          period := .week (start.wall.day + first)
          pending := some (weekDays rule start first (weekRest firstWeekday start first))
          skip := skip } := by
  obtain ⟨⟨kept, skip⟩, isKept, rfl⟩ := Option.map_eq_some_iff.1
    (Plan.keptDays_weekly rule start last firstWeekday first)
  refine ⟨skip, ?_⟩
  rw [enter, planIs, isKept, Plan.times_weekly]
  rfl

theorem awaits_enter (planIs : stream.plan = .weekly rule start last firstWeekday)
    (ended : stream.ended = false)
    (remaining : stream.remaining = rule.ending.left given)
    (active : isActive rule.interval firstWeekday start first = true)
    (inside : start.wall.day + first < dayCount) :
    (stream.enter (.week (start.wall.day + first))
      (stream.plan.times (.week (start.wall.day + first)))).Awaits rule firstWeekday start last given
        first first := by
  obtain ⟨skip, entered⟩ := enter_weekly planIs first
  rw [entered]
  exact {
    plan_eq := planIs, ended_eq := ended, remaining_eq := remaining, active, inside
    reached := Nat.le_refl _, inWeek := Nat.le_add_right _ _, period_eq := rfl
    pending := ⟨_, rfl, by rw [Nat.add_sub_cancel_left]⟩ }

theorem awaits_ofPlan (rule : Rule) (firstWeekday : Weekday) (start : Moment)
    (last : Option WallTime) :
    (ofPlan (.weekly rule start last firstWeekday)).Awaits rule firstWeekday start last 0 0 0 := by
  have remaining : rule.ending.count? = rule.ending.left 0 := by
    cases isCount : rule.ending.count? <;> simp [Ending.left, isCount]
  exact awaits_enter rfl rfl remaining (isActive_zero rule.interval) start.wall.day_lt

theorem give_allowed (time : WallTime) (rest : List DayTimes)
    (remaining : stream.remaining = rule.ending.left given)
    (allowed : ∀ count ∈ rule.ending.count?, (given : Int) < count) :
    stream.give time rest = (.time time, { stream with
      pending := some rest
      remaining := rule.ending.left (given + 1) }) := by
  cases isCount : rule.ending.count? with
  | none =>
      rw [Ending.left, isCount] at remaining
      simp only [give, remaining, Option.map_none, Ending.left, isCount]
  | some count =>
      have more := allowed count isCount
      rw [Ending.left, isCount] at remaining
      have left : ¬count - given ≤ 0 := by omega
      have fewer : count - given - 1 = count - ((given + 1 : Nat) : Int) := by omega
      simp only [give, remaining, Option.map_some, left, if_false, fewer, Ending.left, isCount]

theorem give_refused {counted : Int} (time : WallTime) (rest : List DayTimes)
    (remaining : stream.remaining = rule.ending.left given)
    (isCount : rule.ending.count? = some counted) (refused : counted ≤ given) :
    stream.give time rest = (.finished, stream.close) := by
  have noneLeft : counted - given ≤ 0 := by omega
  rw [Ending.left, isCount] at remaining
  simp only [give, remaining, Option.map_some, noneLeft, if_true]

/-- The last wall-clock time of a plan and the last date of a rule keep out the same candidates. -/
def Bounds (rule : Rule) (start : Moment) (last : Option WallTime) : Prop :=
  ∀ days date, candidate start days = some date →
    (last.any (fun last => decide (last < date.wall)) = true ↔
      ∃ final ∈ rule.ending.date?, final < date)

theorem Bounds.not_allows {date : Moment} (bounds : Bounds rule start last)
    (inside : candidate start days = some date)
    (behind : last.any (fun last => decide (last < date.wall)) = true) :
    ¬rule.ending.Allows given date := by
  obtain ⟨final, isLast, earlier⟩ := (bounds days date inside).1 behind
  intro allowed
  have notLater : date ≤ final := (Ending.allows_iff.1 allowed).2 final isLast
  exact Int.not_lt.2 notLater earlier

theorem Bounds.date_le {date : Moment} (bounds : Bounds rule start last)
    (inside : candidate start days = some date)
    (within : last.any (fun last => decide (last < date.wall)) = false) :
    ∀ final ∈ rule.ending.date?, date ≤ final := by
  intro final isLast
  refine Int.not_lt.1 fun earlier => ?_
  have behind := (bounds days date inside).2 ⟨final, isLast, earlier⟩
  rw [within] at behind
  exact Bool.noConfusion behind

/-- The selected dates from a day on, where none is selected before a candidate. -/
theorem cut_eq_nil_of_candidate {later : Nat} {date : Moment} (reached : days ≤ later)
    (before : selection rule firstWeekday start days later = [])
    (inside : candidate start later = some date) (refused : ¬rule.ending.Allows given date) :
    rule.ending.cut given (selection rule firstWeekday start days dayCount) = [] := by
  rw [selection_append reached (Nat.le_of_lt (days_lt_of_candidate inside)), before, List.nil_append]
  refine Ending.cut_eq_nil refused fun other member => ?_
  obtain ⟨further, reachedFurther, insideFurther⟩ := mem_selection member
  exact candidate_le inside insideFurther reachedFurther

/-- What a stream gives when some dates are still to come: it asks for a day behind the calendar, gives
the first of the dates, or finishes when there is none. -/
inductive GivesNext (rule : Rule) (firstWeekday : Weekday) (start : Moment) (last : Option WallTime)
    (given : Nat) : List Moment → StreamAnswer × Stream → Prop
  | left {dates : List Moment} {after : Stream} :
      GivesNext rule firstWeekday start last given dates (.failed .behindCalendar, after)
  | finished {after : Stream} :
      GivesNext rule firstWeekday start last given [] (.finished, after)
  | date {date : Moment} {place week later : Nat} {after : Stream}
      (inside : candidate start place = some date)
      (awaits : after.Awaits rule firstWeekday start last (given + 1) week later) :
      GivesNext rule firstWeekday start last given
        (date :: rule.ending.cut (given + 1) (selection rule firstWeekday start later dayCount))
        (.time date.wall, after)

/-- A selected date that is found is given, unless the count of the rule is used up. -/
theorem gives_found {place : Nat} {date : Moment} {rest : List DayTimes}
    (bounds : Bounds rule start last)
    (awaits : stream.Awaits rule firstWeekday start last given first days) (reached : days ≤ place)
    (less : place < first + weekRest firstWeekday start first)
    (before : selection rule firstWeekday start days place = [])
    (isSelected : selected rule firstWeekday start place = some date)
    (within : last.any (fun last => decide (last < date.wall)) = false)
    (resumes : stream.plan.seek rest = stream.plan.seek
      (weekDays rule start (place + 1)
        (first + weekRest firstWeekday start first - (place + 1)))) :
    GivesNext rule firstWeekday start last given
      (rule.ending.cut given (selection rule firstWeekday start days dayCount))
      (stream.give date.wall rest) := by
  have inside := (selected_eq_some.1 isSelected).1
  by_cases counted : ∀ count ∈ rule.ending.count?, (given : Int) < count
  · have allowed : rule.ending.Allows given date :=
      Ending.allows_iff.2 ⟨counted, bounds.date_le inside within⟩
    have early := days_lt_of_candidate inside
    have dates : selection rule firstWeekday start days dayCount =
        date :: selection rule firstWeekday start (place + 1) dayCount := by
      rw [selection_append reached (Nat.le_of_lt early), before, selection_cons early, isSelected]
      rfl
    rw [give_allowed date.wall rest awaits.remaining_eq counted, dates, Ending.cut_cons allowed]
    refine .date inside (?_ : Awaits rule firstWeekday start last (given + 1) first (place + 1) _)
    exact {
      plan_eq := awaits.plan_eq, ended_eq := awaits.ended_eq, remaining_eq := rfl
      active := awaits.active, inside := awaits.inside, period_eq := awaits.period_eq
      reached := Nat.le_succ_of_le (Nat.le_trans awaits.reached reached)
      inWeek := less, pending := ⟨rest, rfl, resumes⟩ }
  · obtain ⟨count, isCount, noMore⟩ : ∃ count, rule.ending.count? = some count ∧ count ≤ given := by
      simpa using counted
    have refused : ¬rule.ending.Allows given date := fun allowed =>
      counted (Ending.allows_iff.1 allowed).1
    rw [give_refused date.wall rest awaits.remaining_eq isCount noMore,
      cut_eq_nil_of_candidate reached before inside refused]
    exact .finished

/-- A call of a stream that holds the days left of a week gives the next of the selected dates.  The
induction is on the weeks that may still be entered. -/
theorem nextWithin_gives (periods : Nat) (positive : 1 ≤ rule.interval)
    (whole : start.wall.microsecond = 0) (bounds : Bounds rule start last)
    (awaits : stream.Awaits rule firstWeekday start last given first days)
    (enough : dayCount ≤ first + periods) :
    GivesNext rule firstWeekday start last given
      (rule.ending.cut given (selection rule firstWeekday start days dayCount))
      (nextWithin periods stream) := by
  induction periods generalizing stream first days with
  | zero =>
      have inCalendar := awaits.inside
      omega
  | succ periods ih =>
      obtain ⟨pending, isPending, seeks⟩ := awaits.pending
      have inWeek := awaits.inWeek
      have starts : stream.plan.start = start.wall := by
        rw [awaits.plan_eq]
        rfl
      have lastIs : stream.plan.last = last := by
        rw [awaits.plan_eq]
        rfl
      have finds : FindsInWeek rule firstWeekday start stream.plan days
          (first + weekRest firstWeekday start first) (stream.plan.seek pending) := by
        rw [seeks, ← Nat.add_sub_cancel' inWeek, Nat.add_sub_cancel_left]
        exact finds_weekDays whole starts fun between after before =>
          isActive_of_week awaits.active (Nat.le_trans awaits.reached after) (by omega)
      simp only [nextWithin, isPending]
      generalize stream.plan.seek pending = sought at finds
      cases finds with
      | outside => exact .left
      | passed reached before inside behind =>
          rw [lastIs] at behind
          rw [cut_eq_nil_of_candidate reached before inside (bounds.not_allows inside behind)]
          exact .finished
      | found reached less before isSelected within resumes =>
          rw [lastIs] at within
          exact gives_found bounds awaits reached less before isSelected within resumes
      | nothing noDates =>
          have next : stream.plan.next stream.period stream.skip =
              Plan.onDay (start.wall.day + nextWeek rule.interval firstWeekday start first)
                .week := by
            rw [awaits.plan_eq, awaits.period_eq]
            exact Plan.next_weekly positive first stream.skip
          have dates := selection_week positive awaits.active inWeek
          rw [noDates, List.nil_append] at dates
          rw [next, Plan.onDay, dates]
          by_cases inside : start.wall.day +
              nextWeek rule.interval firstWeekday start first < dayCount
          · have forward : first < nextWeek rule.interval firstWeekday start first :=
              Nat.lt_of_lt_of_le (Nat.lt_add_of_pos_right (weekRest_pos firstWeekday start first))
                (weekRest_le_nextWeek positive)
            simp only [inside, if_true]
            exact ih (awaits_enter awaits.plan_eq awaits.ended_eq awaits.remaining_eq
              (isActive_nextWeek positive awaits.active) inside) (by omega)
          · simp only [inside, if_false]
            rw [selection_behind (Nat.not_lt.1 inside), Ending.cut_nil]
            exact .finished

end Stream

end Recurrence
