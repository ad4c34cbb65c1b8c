import Recurrence.Zone.Pacific
import Recurrence.Proofs.Calendar
import Recurrence.Proofs.Calendar.Weeks

namespace Recurrence

/-! Taking a date apart.

The parts of a date are read off what the calendar shows, but its place in the month is asked of what is
shown, which the calendar then shows once more.  A shown moment stays as it is
(`Calendar.localize_again`); a naive time that the zone skips is moved behind the gap if the zone looks
times up.  So the parts agree with each other and with the calendar unless the gap ends on the next day
and a week or a month begins there: `Calendar.components_agree_iff`.
-/

namespace Components

def date (parts : Components) : CivilDate := ⟨parts.year, parts.month, parts.day⟩

/-- The parts that tell the place of a day say what holds of the date that the other parts give. -/
structure Describes (parts : Components) (firstWeekday : Weekday) : Prop where
  weekday_eq : parts.weekday = parts.date.weekday
  weekOfMonth_eq : parts.weekOfMonth = parts.date.weekStarts firstWeekday 2 parts.day + 1
  weeksInMonth_eq : parts.weeksInMonth = parts.date.weekStarts firstWeekday 2 parts.date.lastDay + 1
  daysInMonth_eq : parts.daysInMonth = parts.date.lastDay

end Components

namespace Calendar

/-- A calendar that is asked for the place of a date answers as the parts of the date say. -/
structure Answers (calendar : Calendar) (date : DateTime) (parts : Components) : Prop where
  weekday_eq : calendar.weekday date = some parts.weekday
  weekOfMonth_eq : calendar.weekOfMonth date = some parts.weekOfMonth
  weeksInMonth_eq : calendar.weeksInMonth date = some parts.weeksInMonth
  daysInMonth_eq : calendar.daysInMonth date = some parts.daysInMonth

/-- A naive time that the zone shows behind a gap, where the clocks go on to a day that begins a week or a
month. -/
def SkipsWeekStart (calendar : Calendar) (date : DateTime) : Prop :=
  ∃ time shown, date = .naive time ∧ calendar.zone.displaces time = true ∧
    calendar.zone.localize time = some shown ∧
      ∃ later : WallTime, (later.micros : Int) = calendar.zone.clock shown.instant ∧
        later.day = time.day + 1 ∧ (later.weekday = calendar.firstWeekday ∨ later.date.day = 1)

variable {calendar : Calendar} {date : DateTime} {shown later : Moment} {parts : Components}

/-- What a calendar shows of a moment it shows unchanged again. -/
theorem localize_again {moment : Moment} (shows : calendar.localize (.aware moment) = some shown) :
    calendar.localize (.aware shown) = some shown := by
  simp only [localize] at shows ⊢
  split at shows
  · next keeps =>
      cases shows
      rw [if_pos keeps]
  · split
    · rfl
    · rw [Zone.instant_of_at shows]
      exact shows

/-- A naive time is shown again as it was read, unless the zone shows it behind a gap: then at most a day
later. -/
theorem wall_of_localize_again {time : WallTime} (read : calendar.zone.localize time = some shown)
    (again : calendar.localize (.aware shown) = some later) :
    (calendar.zone.displaces time = false → later.wall = time) ∧
      (calendar.zone.displaces time = true →
        (later.wall.micros : Int) = calendar.zone.clock shown.instant ∧
          time.micros < later.wall.micros ∧ later.wall.micros ≤ time.micros + microsPerDay) := by
  have fits := fits_of_localize read
  have face := face_of_shown again
  have wall := Zone.wall_of_localize read
  subst wall
  refine ⟨fun stands => WallTime.eq_of_micros ?_, fun displaces => ⟨?_, ?_⟩⟩
  · have lead := fits.lead_eq stands
    rw [Zone.lead] at lead
    omega
  · rw [face, Zone.face_eq_clock (Zone.consults_of_displaces displaces)]
  · have lead := fits.lead_pos displaces
    rw [Zone.lead] at lead
    rw [microsPerDay]
    omega

theorem day_again {time : WallTime} (read : calendar.zone.localize time = some shown)
    (again : calendar.localize (.aware shown) = some later) :
    later.wall.day = time.day ∨
      calendar.zone.displaces time = true ∧ later.wall.day = time.day + 1 := by
  obtain ⟨kept, displaced⟩ := wall_of_localize_again read again
  cases displaces : calendar.zone.displaces time with
  | false => exact .inl (congrArg WallTime.day (kept displaces))
  | true =>
      have near := (displaced displaces).2
      have close : later.wall.day = time.day ∨ later.wall.day = time.day + 1 := by
        simp only [WallTime.day, microsPerDay] at *
        omega
      exact close.imp_right fun next => ⟨rfl, next⟩

/-- Whether a naive time skips the start of a week is seen in what is shown of it again. -/
theorem skipsWeekStart_iff {time : WallTime} (read : calendar.zone.localize time = some shown)
    (again : calendar.localize (.aware shown) = some later) :
    calendar.SkipsWeekStart (.naive time) ↔
      calendar.zone.displaces time = true ∧ later.wall.day = time.day + 1 ∧
        (later.wall.weekday = calendar.firstWeekday ∨ later.wall.date.day = 1) := by
  obtain ⟨_, displaced⟩ := wall_of_localize_again read again
  constructor
  · intro skipped
    obtain ⟨_, _, ⟨⟩, displaces, readAs, wall, wallClock, next, begins⟩ := skipped
    cases read.symm.trans readAs
    have clock := (displaced displaces).1
    have same : wall = later.wall := WallTime.eq_of_micros (by omega)
    rw [← same]
    exact ⟨displaces, next, begins⟩
  · intro seen
    obtain ⟨displaces, next, begins⟩ := seen
    exact ⟨time, shown, rfl, displaces, read, later.wall, (displaced displaces).1, next, begins⟩

/-- What is shown again lies in the same week of the same month, unless a skip leads over their start. -/
theorem sameWeek_again (shows : calendar.localize date = some shown)
    (again : calendar.localize (.aware shown) = some later) :
    (later.wall.weekOfMonth calendar.firstWeekday = shown.wall.weekOfMonth calendar.firstWeekday ∧
        later.wall.weeksInMonth calendar.firstWeekday =
          shown.wall.weeksInMonth calendar.firstWeekday ∧
        later.wall.daysInMonth = shown.wall.daysInMonth) ↔
      ¬calendar.SkipsWeekStart date := by
  cases date with
  | aware moment =>
      have same := localize_again shows
      rw [again] at same
      cases same
      refine iff_of_true ⟨rfl, rfl, rfl⟩ fun skipped => ?_
      obtain ⟨time, _, isNaive, _⟩ := skipped
      contradiction
  | naive time =>
      rw [Zone.wall_of_localize shows, skipsWeekStart_iff shows again]
      rcases day_again shows again with sameDay | ⟨displaces, nextDay⟩
      · refine iff_of_true ?_ fun skipped => ?_
        · simp only [WallTime.weekOfMonth, WallTime.weeksInMonth, WallTime.daysInMonth,
            WallTime.firstWeekOffset, WallTime.date, sameDay, and_self]
        · have nextDay := skipped.2.1
          omega
      · rw [WallTime.sameWeek_iff calendar.firstWeekday nextDay]
        exact not_congr ⟨fun begins => ⟨displaces, nextDay, begins⟩, fun skipped => skipped.2.2⟩

theorem eq_of_components (taken : calendar.components date = some parts) :
    ∃ shown later, calendar.localize date = some shown ∧
      calendar.localize (.aware shown) = some later ∧ parts.date = shown.wall.date ∧
      parts.weekday = shown.wall.weekday ∧
      parts.weekOfMonth = later.wall.weekOfMonth calendar.firstWeekday ∧
      parts.weeksInMonth = later.wall.weeksInMonth calendar.firstWeekday ∧
      parts.daysInMonth = later.wall.daysInMonth := by
  simp only [components, weekOfMonth, weeksInMonth, daysInMonth, Option.bind_eq_bind,
    Option.bind_eq_some_iff, Option.map_eq_some_iff, Option.pure_def, Option.some.injEq] at taken
  obtain ⟨shown, shows, _, ⟨later, again, rfl⟩, _, ⟨_, againWeeks, rfl⟩, _, ⟨_, againDays, rfl⟩, rfl⟩ :=
    taken
  cases again.symm.trans againWeeks
  cases again.symm.trans againDays
  exact ⟨shown, later, shows, again, rfl, rfl, rfl, rfl, rfl⟩

/-- The weekday is always right.  The other parts describe the date that is given, and the calendar gives
them for the date that was asked for, unless a week or a month begins behind a skip. -/
theorem components_agree_iff (taken : calendar.components date = some parts) :
    (parts.weekday = parts.date.weekday ∧ calendar.weekday date = some parts.weekday) ∧
      (parts.Describes calendar.firstWeekday ↔ ¬calendar.SkipsWeekStart date) ∧
      (calendar.Answers date parts ↔ ¬calendar.SkipsWeekStart date) := by
  obtain ⟨shown, later, shows, again, dateIs, weekdayIs, weekIs, weeksIs, daysIs⟩ :=
    eq_of_components taken
  have weekday_eq : parts.weekday = parts.date.weekday := by
    rw [weekdayIs, dateIs, WallTime.weekday_date]
  have answered : calendar.weekday date = some parts.weekday := by
    rw [weekday, shows, weekdayIs]
    rfl
  have month : shown.wall.daysInMonth = shown.wall.date.lastDay := rfl
  have same := sameWeek_again shows again
  rw [← weekIs, ← weeksIs, ← daysIs] at same
  refine ⟨⟨weekday_eq, answered⟩, Iff.trans ?_ same, Iff.trans ?_ same⟩
  · rw [WallTime.weekOfMonth_eq, WallTime.weeksInMonth_eq, month, ← dateIs]
    constructor
    · intro describes
      exact ⟨describes.weekOfMonth_eq, describes.weeksInMonth_eq, describes.daysInMonth_eq⟩
    · intro agree
      obtain ⟨weekEq, weeksEq, daysEq⟩ := agree
      exact ⟨weekday_eq, weekEq, weeksEq, daysEq⟩
  · have week : calendar.weekOfMonth date = some (shown.wall.weekOfMonth calendar.firstWeekday) := by
      rw [weekOfMonth, shows]
      rfl
    have weeks : calendar.weeksInMonth date = some (shown.wall.weeksInMonth calendar.firstWeekday) := by
      rw [weeksInMonth, shows]
      rfl
    have days : calendar.daysInMonth date = some shown.wall.daysInMonth := by
      rw [daysInMonth, shows]
      rfl
    constructor
    · intro answers
      exact ⟨Option.some.inj (answers.weekOfMonth_eq.symm.trans week),
        Option.some.inj (answers.weeksInMonth_eq.symm.trans weeks),
        Option.some.inj (answers.daysInMonth_eq.symm.trans days)⟩
    · intro agree
      obtain ⟨weekEq, weeksEq, daysEq⟩ := agree
      exact ⟨answered, weekEq ▸ week, weeksEq ▸ weeks, daysEq ▸ days⟩

/-- Apia crossed the date line: it skipped Friday 30 December 2011, and weeks begin on Saturday here. -/
def apia : Calendar where
  zone := .varying Zone.Apia.history .reader
  firstWeekday := .saturday

def skippedNoon : WallTime := ⟨63460843200000000, by decide⟩

def skippedParts : Components where
  year := 2011
  month := 12
  day := 30
  hour := 12
  minute := 0
  second := 0
  weekday := .friday
  weekOfMonth := 6
  weeksInMonth := 6
  daysInMonth := 31
  offset := -36000000000

theorem components_skippedNoon : apia.components (.naive skippedNoon) = some skippedParts := by
  decide +kernel

theorem weekOfMonth_skippedNoon : apia.weekOfMonth (.naive skippedNoon) = some 5 := by
  decide +kernel

theorem skipsWeekStart_skippedNoon : apia.SkipsWeekStart (.naive skippedNoon) :=
  ⟨skippedNoon, ⟨skippedNoon, -36000000000, apia.zone⟩, rfl, by decide +kernel, by decide +kernel,
    ⟨63460929600000000, by decide⟩, by decide +kernel, by decide, by decide⟩

theorem components_agree_iff_skippedNoon :
    apia.components (.naive skippedNoon) = some skippedParts ∧
      ¬skippedParts.Describes .saturday ∧ ¬apia.Answers (.naive skippedNoon) skippedParts := by
  obtain ⟨_, describes, answers⟩ := components_agree_iff components_skippedNoon
  have skips := skipsWeekStart_skippedNoon
  exact ⟨components_skippedNoon, fun described => describes.mp described skips,
    fun answered => answers.mp answered skips⟩

/-- Friday 30 December lies in the fifth week of its month, and the calendar says so; among its parts
stands the sixth week, which begins on the Saturday behind the gap. -/
theorem not_forall_components_agree :
    ¬ ∀ (calendar : Calendar) (date : DateTime) (parts : Components),
      calendar.components date = some parts →
        parts.Describes calendar.firstWeekday ∧ calendar.Answers date parts := by
  intro agree
  obtain ⟨_, answers⟩ := agree apia (.naive skippedNoon) skippedParts components_skippedNoon
  have same := answers.weekOfMonth_eq
  rw [weekOfMonth_skippedNoon] at same
  contradiction

end Calendar

end Recurrence
