import Recurrence.Proofs.Weekly.Meaning
import Recurrence.Proofs.Weekly.Walk

namespace Recurrence

/-! A weekly generator answers what its rule means.

In a calendar of one offset a cursor always stands some days after the start, in an active week, and
has counted the selected dates before it (`WeeklyWalk.Stands`).  As long as no candidate lies outside
the calendar, one call gives out the first of the dates still to come, or finishes when the end of the
rule leaves none; `WeeklyWalk.answers_eq` puts the calls together.
-/

namespace Zone

variable {zone : Zone} {offset : Int}

theorem localize_of_constant (constant : zone.constantOffset? = some offset) (time : WallTime) :
    zone.localize time = some ⟨time, offset, zone⟩ := by
  cases zone with
  | steady | fixed =>
      simp only [constantOffset?, Option.some.injEq] at constant
      simp [localize, localizeWith, constant]
  | varying => contradiction

theorem keeps_of_constant (constant : zone.constantOffset? = some offset) :
    zone.keeps zone = true := by
  cases zone with
  | steady | fixed => exact keeps_self rfl
  | varying => contradiction

end Zone

namespace WeeklyWalk

/-- No candidate that is walked over in a number of calls is followed by one outside the calendar.
A candidate is an active day up to the end of the rule; it is walked over when fewer dates than calls
lie before it. -/
def StaysInside (rule : Rule) (firstWeekday : Weekday) (start : Moment) (calls : Nat) : Prop :=
  ∀ days next date, candidate start days = some date →
    isActive rule.interval firstWeekday start days = true →
    rule.ending.Allows (selection rule firstWeekday start 0 days).length date →
    (selection rule firstWeekday start 0 days).length < calls →
    days < next → isActive rule.interval firstWeekday start next = true →
    (∀ between, days < between → between < next →
      isActive rule.interval firstWeekday start between = false) →
    (candidate start next).isSome = true

/-- What a generator for a rule takes from it, in a calendar of one offset. -/
structure Reads (rule : Rule) (calendar : Calendar) (start : Moment) (course : Course)
    (filter : WeekdayFilter) : Prop where
  positive : 1 ≤ rule.interval
  calendar_eq : course.calendar = calendar
  interval_eq : course.interval = rule.interval
  ending_eq : course.ending = rule.ending
  last_instant : course.last.map Moment.instant = rule.ending.date?.map Moment.instant
  last_zone : ∀ last ∈ course.last, last.zone = calendar.zone
  ordinals_eq : filter.ordinals = false
  entries_eq : filter.entries.map DayEntry.weekday = wanted rule start
  constant : calendar.zone.constantOffset? = some start.offset
  zone_eq : start.zone = calendar.zone

/-- Where a cursor stands: some days after the start, in an active week, with the selected dates before
it counted. -/
structure Stands (rule : Rule) (firstWeekday : Weekday) (start : Moment) (days : Nat)
    (cursor : Cursor) : Prop where
  inside : candidate start days = some cursor.current
  active : isActive rule.interval firstWeekday start days = true
  count_eq : cursor.count = (selection rule firstWeekday start 0 days).length
  exhausted_eq : cursor.exhausted = false

variable {rule : Rule} {calendar : Calendar} {start date after : Moment} {course : Course}
  {filter : WeekdayFilter} {days : Nat}

theorem Reads.localize_candidate (reads : Reads rule calendar start course filter)
    (inside : candidate start days = some date) : calendar.localize (.aware date) = some date := by
  have zoneIs : date.zone = calendar.zone := by
    rw [(candidate_eq_some.1 inside).2.2, reads.zone_eq]
  simp only [Calendar.localize, zoneIs, Zone.keeps_of_constant reads.constant, if_true]

theorem isLastWeekday_candidate (reads : Reads rule calendar start course filter)
    (inside : candidate start days = some date) :
    calendar.isLastWeekday (.aware date) = some
      (decide ((days + start.wall.weekday.daysSince calendar.firstWeekday) % 7 = 6)) := by
  simp only [Calendar.isLastWeekday, Calendar.weekday, reads.localize_candidate inside,
    Option.map_some, Option.some.injEq]
  have index := index_of_candidate inside
  have lastIndex : (calendar.lastWeekday.index : Int) = (calendar.firstWeekday.index - 1) % 7 :=
    Weekday.index_ofIndex _
  have startBound := start.wall.weekday.index_lt
  have firstBound := calendar.firstWeekday.index_lt
  rw [Bool.eq_iff_iff, beq_iff_eq, decide_eq_true_eq]
  have same : date.wall.weekday = calendar.lastWeekday ↔
      date.wall.weekday.index = calendar.lastWeekday.index := by
    refine ⟨congrArg _, fun equal => ?_⟩
    rw [← Weekday.ofIndex_index date.wall.weekday, equal, Weekday.ofIndex_index]
  rw [same, index, Weekday.daysSince]
  omega

/-- A shift from a candidate leads to the candidate of that day, where there is one. -/
theorem addDays_candidate (reads : Reads rule calendar start course filter)
    (inside : candidate start days = some date) (next : Nat) :
    calendar.addDays (.aware date) ((next : Int) - days) = candidate start next := by
  have sum : (date.wall.micros : Int) + ((next : Int) - days) * 86400000000 =
      start.wall.micros + next * 86400000000 := by
    rw [(candidate_eq_some.1 inside).1]
    omega
  simp only [Calendar.addDays, reads.localize_candidate inside, Option.bind_eq_bind,
    Option.bind_some, candidate, WallTime.addDays, WallTime.addMicros, sum]
  cases WallTime.ofMicros? (start.wall.micros + next * 86400000000) with
  | none => rfl
  | some wall =>
      rw [Option.bind_some, Zone.localize_of_constant reads.constant, Option.map_some,
        ← reads.zone_eq]

/-- The step from a candidate is a shift to the following active day. -/
theorem nextDate_eq (reads : Reads rule calendar start course filter)
    (inside : candidate start days = some date) {shift : Int}
    (shift_eq : shift = (following rule.interval calendar.firstWeekday start days : Int) - days) :
    nextDate course date =
      if greatestShift < shift.natAbs then .error (.shift shift)
      else
        match calendar.addDays (.aware date) shift with
        | none => .error .date
        | some after => .ok after := by
  have positive := reads.positive
  have steps : (if (days + start.wall.weekday.daysSince calendar.firstWeekday) % 7 = 6 then
      1 + (rule.interval - 1) * 7 else 1) = shift := by
    rw [shift_eq, following]
    split <;> omega
  cases moved : calendar.addDays (.aware date) shift <;>
    simp only [nextDate, reads.calendar_eq, isLastWeekday_candidate reads inside, reads.interval_eq,
      decide_eq_true_eq, steps, moved]

theorem nextDate_candidate (reads : Reads rule calendar start course filter)
    (inside : candidate start days = some date)
    (next : candidate start
      (following rule.interval calendar.firstWeekday start days) = some after) :
    nextDate course date = .ok after := by
  have bound := days_lt_of_candidate next
  have forward := lt_following rule.interval calendar.firstWeekday start days
  have small : ¬greatestShift <
      ((following rule.interval calendar.firstWeekday start days : Int) - days).natAbs := by
    simp only [greatestShift, dayCount] at bound ⊢
    omega
  rw [nextDate_eq reads inside rfl, if_neg small, addDays_candidate reads inside, next]

theorem nextDate_outside (reads : Reads rule calendar start course filter)
    (inside : candidate start days = some date)
    (outside : candidate start
      (following rule.interval calendar.firstWeekday start days) = none) :
    ∃ fault, nextDate course date = .error fault := by
  rw [nextDate_eq reads inside rfl, addDays_candidate reads inside, outside]
  split
  · exact ⟨_, rfl⟩
  · exact ⟨_, rfl⟩

theorem matches_candidate (reads : Reads rule calendar start course filter)
    (inside : candidate start days = some date) :
    filter.matches calendar (.aware date) =
      some ((wanted rule start).contains date.wall.weekday) := by
  have alone (entry : DayEntry) (weekday : Weekday) (week weeks : Nat) :
      WeekdayFilter.entryAccepts false entry weekday week weeks = true ↔
        entry.weekday = weekday := by
    cases ordinal : entry.ordinal <;> simp [WeekdayFilter.entryAccepts, ordinal]
  simp only [WeekdayFilter.matches, reads.localize_candidate inside, Option.map_some,
    Option.some.injEq]
  rw [Bool.eq_iff_iff, List.contains_iff_mem, ← reads.entries_eq]
  simp only [WeekdayFilter.accepts, List.any_eq_true, reads.ordinals_eq, alone, List.mem_map]

theorem Reads.reachedEnd_eq_false {cursor : Cursor} (reads : Reads rule calendar start course filter) :
    course.reachedEnd cursor = false ↔ rule.ending.Allows cursor.count cursor.current := by
  have instants := reads.last_instant
  simp only [Course.reachedEnd, reads.ending_eq]
  cases ending : rule.ending with
  | never =>
      rw [ending] at instants
      simp only [Ending.date?, Option.map_none, Option.map_eq_none_iff] at instants
      simp [instants, Ending.count?, Ending.Allows]
  | afterCount count =>
      rw [ending] at instants
      simp only [Ending.date?, Option.map_none, Option.map_eq_none_iff] at instants
      simp [instants, Ending.count?, Ending.Allows]
  | afterDate last =>
      rw [ending] at instants
      simp only [Ending.date?, Option.map_some, Option.map_eq_some_iff] at instants
      obtain ⟨shown, lastIs, same⟩ := instants
      have compare : shown.isBefore cursor.current = false ↔ cursor.current ≤ last := by
        have looksUp : shown.zone.isPlain = false := by
          rw [reads.last_zone shown lastIs]
          exact Zone.isPlain_of_constant reads.constant
        rw [Moment.isBefore_eq_lt looksUp, decide_eq_false_iff_not]
        change ¬shown.instant < cursor.current.instant ↔ cursor.current.instant ≤ last.instant
        rw [same]
        exact Int.not_lt
      simp [lastIs, Ending.count?, Ending.Allows, compare]

/-- The cursor behind a candidate stands at the following one, with the candidate counted if it is
selected. -/
theorem Stands.next {cursor moved : Cursor}
    (reads : Reads rule calendar start course filter)
    (stands : Stands rule calendar.firstWeekday start days cursor)
    (inside : candidate start (following rule.interval calendar.firstWeekday start days) =
      some moved.current)
    (counted : moved.count = cursor.count +
      (selected rule calendar.firstWeekday start days).toList.length)
    (notExhausted : moved.exhausted = false) :
    Stands rule calendar.firstWeekday start
      (following rule.interval calendar.firstWeekday start days) moved := by
  refine ⟨inside, (isActive_following reads.positive stands.active).1, ?_, notExhausted⟩
  have forward := lt_following rule.interval calendar.firstWeekday start days
  rw [counted, stands.count_eq, selection_append (Nat.zero_le days) (Nat.le_of_lt forward),
    selection_following reads.positive stands.active, List.length_append]

/-- A call breaks off at a candidate that is followed by one outside the calendar, finishes when no
date is still to come, or gives out the first of them. -/
theorem walk_cases (fuel : Nat) {cursor : Cursor}
    (reads : Reads rule calendar start course filter)
    (stands : Stands rule calendar.firstWeekday start days cursor)
    (enough : dayCount ≤ days + fuel) :
    (∃ fault moved left, walk course filter fuel cursor = (.broken (.outOfRange fault), moved) ∧
      Stands rule calendar.firstWeekday start left moved ∧ moved.count = cursor.count ∧
      rule.ending.Allows moved.count moved.current ∧
      candidate start (following rule.interval calendar.firstWeekday start left) = none) ∨
    (walk course filter fuel cursor).1 = .finished ∧
      (walk course filter fuel cursor).2.exhausted = true ∧
      (walk course filter fuel cursor).2.count = cursor.count ∧
      rule.ending.cut cursor.count
        (selection rule calendar.firstWeekday start days dayCount) = [] ∨
    ∃ date moved later, walk course filter fuel cursor = (.date date, moved) ∧
      Stands rule calendar.firstWeekday start later moved ∧ moved.count = cursor.count + 1 ∧
      rule.ending.cut cursor.count (selection rule calendar.firstWeekday start days dayCount) =
        date :: rule.ending.cut moved.count
          (selection rule calendar.firstWeekday start later dayCount) := by
  induction fuel generalizing cursor days with
  | zero =>
      have inCalendar := days_lt_of_candidate stands.inside
      omega
  | succ fuel ih =>
      unfold walk
      cases reached : course.reachedEnd cursor with
      | true =>
          have refused : ¬rule.ending.Allows cursor.count cursor.current := by
            rw [← reads.reachedEnd_eq_false, reached]
            exact Bool.noConfusion
          refine .inr (.inl ⟨rfl, rfl, rfl, Ending.cut_eq_nil refused fun other member => ?_⟩)
          obtain ⟨later, reachedLater, inside⟩ := mem_selection member
          exact candidate_le stands.inside inside reachedLater
      | false =>
          have allowed := reads.reachedEnd_eq_false.1 reached
          cases next : candidate start
              (following rule.interval calendar.firstWeekday start days) with
          | none =>
              obtain ⟨fault, broken⟩ := nextDate_outside reads stands.inside next
              simp only [Bool.false_eq_true, if_false, broken]
              exact .inl ⟨fault, cursor, days, rfl, stands, rfl, allowed, next⟩
          | some after =>
              have forward := lt_following rule.interval calendar.firstWeekday start days
              have moved := nextDate_candidate reads stands.inside next
              have split := selection_eq_append reads.positive stands.active
                (Nat.le_of_lt (days_lt_of_candidate next))
              simp only [Bool.false_eq_true, if_false, moved, reads.calendar_eq,
                matches_candidate reads stands.inside]
              cases wantedDay : (wanted rule start).contains cursor.current.wall.weekday with
              | true =>
                  have isSelected : selected rule calendar.firstWeekday start days =
                      some cursor.current :=
                    selected_eq_some.2 ⟨stands.inside, stands.active, wantedDay⟩
                  have behind : Stands rule calendar.firstWeekday start
                      (following rule.interval calendar.firstWeekday start days)
                      { cursor with current := after, count := cursor.count + 1 } :=
                    stands.next reads next (by rw [isSelected]; rfl) stands.exhausted_eq
                  refine .inr (.inr ⟨_, _, _, rfl, behind, rfl, ?_⟩)
                  rw [split, isSelected]
                  exact Ending.cut_cons allowed _
              | false =>
                  have notSelected : selected rule calendar.firstWeekday start days = none :=
                    selected_eq_none stands.inside wantedDay
                  have behind : Stands rule calendar.firstWeekday start
                      (following rule.interval calendar.firstWeekday start days)
                      { cursor with current := after } :=
                    stands.next reads next (by rw [notSelected]; rfl) stands.exhausted_eq
                  rw [split, notSelected]
                  exact ih behind (by omega)

/-- One call gives out the first of the dates still to come, or finishes when there is none. -/
theorem walk_stands (fuel : Nat) {calls : Nat} {cursor : Cursor}
    (reads : Reads rule calendar start course filter)
    (stands : Stands rule calendar.firstWeekday start days cursor)
    (stays : StaysInside rule calendar.firstWeekday start calls) (few : cursor.count < calls)
    (enough : dayCount ≤ days + fuel) :
    (∃ moved, walk course filter fuel cursor = (.finished, moved) ∧ moved.exhausted = true ∧
      rule.ending.cut cursor.count
        (selection rule calendar.firstWeekday start days dayCount) = []) ∨
    ∃ date moved later, walk course filter fuel cursor = (.date date, moved) ∧
      Stands rule calendar.firstWeekday start later moved ∧ moved.count = cursor.count + 1 ∧
      rule.ending.cut cursor.count (selection rule calendar.firstWeekday start days dayCount) =
        date :: rule.ending.cut moved.count
          (selection rule calendar.firstWeekday start later dayCount) := by
  rcases walk_cases fuel reads stands enough with
    ⟨_, moved, left, _, behind, counted, allowed, outside⟩ | ⟨finished, exhausted, _, noDates⟩ |
      given
  · obtain ⟨active, between⟩ := isActive_following reads.positive behind.active
    have forward := lt_following rule.interval calendar.firstWeekday start left
    have inside := stays left _ moved.current behind.inside behind.active
      (behind.count_eq ▸ allowed) (by rw [← behind.count_eq, counted]; exact few) forward active
      between
    rw [outside] at inside
    exact Bool.noConfusion inside
  · exact .inl ⟨_, Prod.ext finished rfl, exhausted, noDates⟩
  · exact .inr given

theorem answers_of_exhausted (generator : WeeklyWalk) (exhausted : generator.cursor.exhausted = true)
    (calls : Nat) : generator.answers calls = List.replicate calls Answer.finished := by
  induction calls with
  | zero => rfl
  | succ calls ih => rw [answers, advance_of_exhausted exhausted, ih, List.replicate_succ]

theorem answers_succ {generator : WeeklyWalk} {answer : Answer} {moved : Cursor}
    (notExhausted : generator.cursor.exhausted = false)
    (walked : walk generator.course generator.filter (dayCount + 1) generator.cursor =
      (answer, moved)) (calls : Nat) :
    generator.answers (calls + 1) =
      answer :: answers calls { generator with cursor := moved } := by
  have stepped : generator.advance = (answer, { generator with cursor := moved }) := by
    rw [advance_eq_walk notExhausted, walked]
  rw [answers, stepped]

theorem answers_stands {generator : WeeklyWalk} {calls asked : Nat}
    (reads : Reads rule calendar start generator.course generator.filter)
    (stands : Stands rule calendar.firstWeekday start days generator.cursor)
    (stays : StaysInside rule calendar.firstWeekday start calls)
    (few : generator.cursor.count + asked ≤ calls) :
    generator.answers asked =
      ((rule.ending.cut generator.cursor.count
        (selection rule calendar.firstWeekday start days dayCount)).map Answer.date ++
          List.replicate asked Answer.finished).take asked := by
  induction asked generalizing generator days with
  | zero => rfl
  | succ asked ih =>
      have enough : dayCount ≤ days + (dayCount + 1) := by omega
      rcases walk_stands (dayCount + 1) reads stands stays (by omega) enough with
        ⟨moved, walked, exhausted, noDates⟩ | ⟨date, moved, later, walked, behind, counted, dates⟩
      · rw [answers_succ stands.exhausted_eq walked, noDates]
        rw [answers_of_exhausted { generator with cursor := moved } exhausted,
          ← List.replicate_succ]
        simp
      · rw [answers_succ stands.exhausted_eq walked, dates]
        have stillFew : moved.count + asked ≤ calls := by omega
        have rest := @ih later { generator with cursor := moved } reads behind stillFew
        rw [rest]
        simp only [List.map_cons, List.cons_append, List.take_succ_cons, List.take_append,
          List.take_replicate]
        congr 3
        omega

theorem last_instant_of_begins {begun : DateTime} {cursor : Cursor}
    (begins : Course.Begins rule begun calendar course cursor) :
    course.last.map Moment.instant = rule.ending.date?.map Moment.instant := by
  have shows := begins.shows_last
  cases isDate : rule.ending.date? with
  | none =>
      rw [isDate, Option.map_none, Option.map_eq_none_iff] at shows
      rw [shows]
  | some date =>
      rw [isDate, Option.map_some, Option.map_eq_some_iff] at shows
      obtain ⟨last, lastIs, showsLast⟩ := shows
      rw [lastIs, Option.map_some, Option.map_some, Calendar.instant_of_shown showsLast.symm]

theorem last_zone_of_begins {begun : DateTime} {cursor : Cursor}
    (begins : Course.Begins rule begun calendar course cursor) :
    ∀ last ∈ course.last, last.zone = calendar.zone := by
  intro last lastIs
  have shows := begins.shows_last
  rw [lastIs, Option.map_some, eq_comm, Option.map_eq_some_iff] at shows
  obtain ⟨_, _, showsLast⟩ := shows
  exact Calendar.zone_of_shown showsLast

/-- Where a course begins inside the calendar, a generator is built that stands at the start. -/
theorem build_of_begin? {begun : DateTime} {offset : Int} {cursor : Cursor} (valid : rule.Valid)
    (weekly : rule.frequency = .weekly) (coherent : begun.Coherent)
    (constant : calendar.zone.constantOffset? = some offset)
    (beginsAt : Course.begin? rule begun calendar = some (course, cursor)) :
    ∃ generator, build rule begun calendar = .ok generator ∧
      Reads rule calendar cursor.current generator.course generator.filter ∧
      Stands rule calendar.firstWeekday cursor.current 0 generator.cursor ∧
      generator.cursor.count = 0 := by
  have begins := Course.begins_of_begin? beginsAt
  have fits := Calendar.fits_of_shown coherent begins.shows_start
  have offsetIs : cursor.current.offset = offset :=
    fits.coherent.offset_eq (by rw [fits.zone_eq, constant])
  have keeps := Zone.keeps_of_constant constant
  have weekday : course.calendar.weekday (.aware cursor.current) =
      some cursor.current.wall.weekday := by
    simp only [begins.calendar_eq, Calendar.weekday, Calendar.localize, fits.zone_eq, keeps,
      if_true, Option.map_some]
  obtain ⟨list, listed, weekdays⟩ : ∃ list,
      entries rule course cursor = some list ∧
        list.map DayEntry.weekday = wanted rule cursor.current := by
    unfold entries wanted
    split
    · exact ⟨_, by rw [weekday]; rfl, rfl⟩
    · exact ⟨_, rfl, rfl⟩
  refine ⟨⟨course, cursor, ⟨list, false⟩⟩, ?_, ?_, ?_, begins.count_eq⟩
  · simp [build, weekly, beginsAt, listed]
  · exact {
      positive := valid.1, calendar_eq := begins.calendar_eq, interval_eq := begins.interval_eq
      ending_eq := begins.ending_eq, last_instant := last_instant_of_begins begins
      last_zone := last_zone_of_begins begins
      ordinals_eq := rfl, entries_eq := weekdays, zone_eq := fits.zone_eq
      constant := by rw [offsetIs, constant] }
  · exact ⟨candidate_zero, isActive_zero rule.interval, begins.count_eq, begins.exhausted_eq⟩

theorem exists_build {begun : DateTime} {offset : Int} (valid : rule.Valid)
    (weekly : rule.frequency = .weekly) (coherent : begun.Coherent)
    (constant : calendar.zone.constantOffset? = some offset)
    (shows : calendar.localize begun = some start)
    (endInside : ∀ last ∈ rule.ending.date?, (calendar.localize (.aware last)).isSome = true) :
    ∃ generator, build rule begun calendar = .ok generator ∧
      Reads rule calendar start generator.course generator.filter ∧
      Stands rule calendar.firstWeekday start 0 generator.cursor ∧ generator.cursor.count = 0 := by
  obtain ⟨course, beginsAt⟩ := Course.exists_begin? shows endInside
  exact build_of_begin? valid weekly coherent constant beginsAt

/-- In a calendar of one offset a weekly generator gives out the dates that its rule means, in
increasing order, and finishes behind them.  This holds for any number of calls in which no candidate
leaves the calendar. -/
theorem answers_eq_meaning {begun : DateTime} {offset : Int} (valid : rule.Valid)
    (weekly : rule.frequency = .weekly) (coherent : begun.Coherent)
    (constant : calendar.zone.constantOffset? = some offset)
    (shows : calendar.localize begun = some start)
    (endInside : ∀ last ∈ rule.ending.date?, (calendar.localize (.aware last)).isSome = true) :
    (meaning rule calendar.firstWeekday start).Pairwise (· < ·) ∧
      ∃ generator, build rule begun calendar = .ok generator ∧
        ∀ calls, StaysInside rule calendar.firstWeekday start calls →
          generator.answers calls =
            ((meaning rule calendar.firstWeekday start).map Answer.date ++
              List.replicate calls Answer.finished).take calls := by
  obtain ⟨generator, built, reads, stands, count⟩ :=
    exists_build valid weekly coherent constant shows endInside
  refine ⟨meaning_pairwise rule calendar.firstWeekday start, generator, built, fun calls stays => ?_⟩
  have few : generator.cursor.count + calls ≤ calls := by omega
  rw [answers_stands reads stands stays few, count]
  rfl

/-- Two Mondays at 09:00 from 1 January 2024 on. -/
def twoMondays : Rule where
  frequency := .weekly
  ending := .afterCount 2

def mondayStart : Moment where
  wall := ⟨63839696400000000, by decide⟩
  offset := 0
  zone := .utc

theorem staysInside_twoMondays (calls : Nat) : StaysInside twoMondays .monday mondayStart calls := by
  intro days next date _ _ allowed _ less _ inactive
  have early : days < 8 := by
    refine Nat.lt_of_not_le fun late => ?_
    have two : (selection twoMondays .monday mondayStart 0 8).length = 2 := by decide +kernel
    have fewer : ((selection twoMondays .monday mondayStart 0 days).length : Int) < 2 := allowed
    rw [selection_append (Nat.zero_le 8) late, List.length_append, two] at fewer
    omega
  have soon : next ≤ days + 1 := by
    refine Nat.le_of_not_lt fun late => ?_
    have active : isActive twoMondays.interval .monday mondayStart (days + 1) = true :=
      decide_eq_true (Int.one_dvd _)
    rw [inactive (days + 1) (Nat.lt_succ_self days) late] at active
    exact Bool.noConfusion active
  have near : next = 1 ∨ next = 2 ∨ next = 3 ∨ next = 4 ∨ next = 5 ∨ next = 6 ∨ next = 7 ∨
      next = 8 := by omega
  rcases near with rfl | rfl | rfl | rfl | rfl | rfl | rfl | rfl <;> decide

theorem answers_twoMondays :
    (meaning twoMondays .monday mondayStart).Pairwise (· < ·) ∧
      ∃ generator, build twoMondays (.naive mondayStart.wall) {} = .ok generator ∧
        generator.answers 3 =
          ((meaning twoMondays .monday mondayStart).map Answer.date ++
            List.replicate 3 Answer.finished).take 3 := by
  obtain ⟨increasing, generator, built, answered⟩ :=
    @answers_eq_meaning twoMondays {} mondayStart (.naive mondayStart.wall) 0 (by decide) rfl
      (DateTime.coherent_naive _) rfl (by decide) (by decide)
  exact ⟨increasing, generator, built, answered 3 (staysInside_twoMondays 3)⟩

end WeeklyWalk

end Recurrence
