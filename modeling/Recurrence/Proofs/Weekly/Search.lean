import Recurrence.Proofs.WeekdayFilter
import Recurrence.Proofs.Weekly.Account
import Recurrence.Proofs.Weekly.Remaining

namespace Recurrence

/-! How long a weekly generator searches for its next date.

A call looks at one candidate after another until it gives one out, ends or breaks off, and nothing counts
them (`WeeklyWalk.Search`).  Where the clocks are never moved, the weekday of the candidates advances by one
whatever the interval is, as a step over whole weeks keeps it (`WeeklyWalk.weekday_of_nextDate`).  Every
generator wants some weekday, so a call looks at seven candidates at most
(`WeeklyWalk.search_length_le_seven`).
-/

theorem Weekday.daysSince_next {wanted today tomorrow : Weekday} {days : Nat}
    (next : tomorrow.index = (today.index + 1) % 7) (distance : wanted.daysSince today = days + 1) :
    wanted.daysSince tomorrow = days := by
  have wantedBound := wanted.index_lt
  have todayBound := today.index_lt
  simp only [daysSince] at distance ⊢
  omega

/-- A zone of one offset shows every wall-clock time. -/
theorem Zone.not_displaces_of_offsetAt {zone : Zone} {offset : Int}
    (constant : ∀ instant, zone.offsetAt instant = offset) (time : WallTime) :
    zone.displaces time = false := by
  have shown : zone.clock ((time.micros : Int) - offset) = time.micros := by
    rw [clock, constant]
    omega
  rw [displaces, not_skips_of_clock shown, Bool.and_false]

/-- A date that its calendar does not show behind a gap is shown as it stands. -/
theorem Calendar.wall_of_shown {calendar : Calendar} {date shown : Moment} (fits : calendar.Fits date)
    (stands : calendar.zone.displaces date.wall = false)
    (shows : calendar.localize (.aware date) = some shown) : shown.wall = date.wall := by
  have face := face_of_shown shows
  have lead := fits.lead_eq stands
  rw [Zone.lead] at lead
  exact WallTime.eq_of_micros (by omega)

namespace WeeklyWalk

/-- The search of one call from a cursor: the candidates that it looks at, the answer and the cursor behind
it.  It goes on from a candidate only when the filter does not accept it. -/
inductive Search (course : Course) (filter : WeekdayFilter) :
    Cursor → List Moment → Answer × Cursor → Prop
  | exhausted {cursor : Cursor} (isExhausted : cursor.exhausted = true) :
      Search course filter cursor [] (.finished, cursor)
  | ended {cursor : Cursor} (notExhausted : cursor.exhausted = false)
      (reached : course.reachedEnd cursor = true) :
      Search course filter cursor [] (.finished, { cursor with exhausted := true })
  | unmoved {cursor : Cursor} {fault : RangeFault} (notExhausted : cursor.exhausted = false)
      (unfinished : course.reachedEnd cursor = false)
      (broken : nextDate course cursor.current = .error fault) :
      Search course filter cursor [cursor.current] (.broken (.outOfRange fault), cursor)
  | unjudged {cursor : Cursor} {after : Moment} (notExhausted : cursor.exhausted = false)
      (unfinished : course.reachedEnd cursor = false)
      (moved : nextDate course cursor.current = .ok after)
      (judged : filter.matches course.calendar (.aware cursor.current) = none) :
      Search course filter cursor [cursor.current] (.broken .range, { cursor with current := after })
  | accepted {cursor : Cursor} {after : Moment} (notExhausted : cursor.exhausted = false)
      (unfinished : course.reachedEnd cursor = false)
      (moved : nextDate course cursor.current = .ok after)
      (judged : filter.matches course.calendar (.aware cursor.current) = some true) :
      Search course filter cursor [cursor.current]
        (.date cursor.current, { cursor with current := after, count := cursor.count + 1 })
  | passed {cursor : Cursor} {after : Moment} {candidates : List Moment} {result : Answer × Cursor}
      (notExhausted : cursor.exhausted = false) (unfinished : course.reachedEnd cursor = false)
      (moved : nextDate course cursor.current = .ok after)
      (judged : filter.matches course.calendar (.aware cursor.current) = some false)
      (later : Search course filter { cursor with current := after } candidates result) :
      Search course filter cursor (cursor.current :: candidates) result

variable {course : Course} {filter : WeekdayFilter} {cursor : Cursor} {date after : Moment}

/-- There is one way only in which a search can go. -/
theorem Search.unique {candidates others : List Moment} {result other : Answer × Cursor}
    (first : Search course filter cursor candidates result)
    (second : Search course filter cursor others other) : others = candidates ∧ other = result := by
  induction first generalizing others other with
  | exhausted isExhausted => cases second <;> simp_all
  | ended notExhausted reached => cases second <;> simp_all
  | unmoved notExhausted unfinished broken => cases second <;> simp_all
  | unjudged notExhausted unfinished moved judged => cases second <;> simp_all
  | accepted notExhausted unfinished moved judged => cases second <;> simp_all
  | passed notExhausted unfinished moved judged later ih =>
      cases second with
      | passed _ _ otherMoved _ otherLater =>
          cases moved.symm.trans otherMoved
          obtain ⟨sameCandidates, sameResult⟩ := ih otherLater
          exact ⟨by rw [sameCandidates], sameResult⟩
      | _ => simp_all

/-- Where the clocks are not moved, a step leads to a date of the next weekday. -/
theorem weekday_of_nextDate (fits : course.calendar.Fits date)
    (stands : course.calendar.zone.displaces date.wall = false)
    (moved : nextDate course date = .ok after) :
    after.wall.weekday.index = (date.wall.weekday.index + 1) % 7 := by
  obtain ⟨days, steps, ahead, _⟩ := shift_of_nextDate moved
  have lead := fits.lead_eq stands
  rw [Zone.lead] at lead
  have later : (after.wall.micros : Int) = date.wall.micros + days * 86400000000 := by omega
  simp only [WallTime.weekday, Weekday.index_ofDay, WallTime.day, microsPerDay]
  rcases steps with rfl | rfl <;> omega

/-- A filter without ordinals accepts a date that it can judge if it falls on one of its weekdays. -/
theorem matches_of_weekday {entry : DayEntry} (fits : course.calendar.Fits date)
    (stands : course.calendar.zone.displaces date.wall = false) (ordinals : filter.ordinals = false)
    (member : entry ∈ filter.entries) (weekday : entry.weekday = date.wall.weekday)
    (moved : nextDate course date = .ok after) :
    filter.matches course.calendar (.aware date) = some true := by
  obtain ⟨accepted, judged⟩ := @matches_of_nextDate course filter _ _ moved
  obtain ⟨shown, shows, judges⟩ := Option.map_eq_some_iff.mp judged
  have accepts : filter.accepts course.calendar.firstWeekday shown.wall = true := by
    refine (WeekdayFilter.accepts_iff _ _ _).mpr ⟨entry, member, ?_, fun counts => ?_⟩
    · rw [weekday, WallTime.weekday_date, Calendar.wall_of_shown fits stands shows]
    · rw [ordinals] at counts
      contradiction
  rw [judged, ← judges, accepts]

/-- A search ends at the latest when it comes to a wanted weekday. -/
theorem exists_search {entry : DayEntry} {steps distance : Nat} (positive : 1 ≤ course.interval)
    (skipless : ∀ time, course.calendar.zone.displaces time = false) (ordinals : filter.ordinals = false)
    (member : entry ∈ filter.entries) (fits : course.calendar.Fits cursor.current)
    (notExhausted : cursor.exhausted = false)
    (away : entry.weekday.daysSince cursor.current.wall.weekday = distance) (enough : distance < steps) :
    ∃ candidates, Search course filter cursor candidates (walk course filter steps cursor) ∧
      candidates.length ≤ distance + 1 := by
  induction steps generalizing cursor distance with
  | zero => contradiction
  | succ steps ih =>
      rw [walk]
      cases ended : course.reachedEnd cursor with
      | true => exact ⟨[], .ended notExhausted ended, Nat.zero_le _⟩
      | false =>
          rw [if_neg Bool.false_ne_true]
          cases moved : nextDate course cursor.current with
          | error fault =>
              exact ⟨[cursor.current], .unmoved notExhausted ended moved, Nat.le_add_left 1 distance⟩
          | ok after =>
              obtain ⟨accepted, judged⟩ := @matches_of_nextDate course filter _ _ moved
              simp only [judged]
              cases accepted with
              | true =>
                  exact ⟨[cursor.current], .accepted notExhausted ended moved judged,
                    Nat.le_add_left 1 distance⟩
              | false =>
                  -- A candidate that is passed is not of the wanted weekday, and the next one is nearer.
                  obtain ⟨less, rfl⟩ : ∃ less, distance = less + 1 := by
                    refine Nat.exists_eq_succ_of_ne_zero fun arrived => ?_
                    have here := Weekday.daysSince_eq_zero.mp (away.trans arrived)
                    rw [matches_of_weekday fits (skipless _) ordinals member here moved] at judged
                    contradiction
                  have nearer := Weekday.daysSince_next (weekday_of_nextDate fits (skipless _) moved) away
                  obtain ⟨candidates, searched, short⟩ := @ih { cursor with current := after } less
                    (day_lt_of_nextDate positive fits moved).2 notExhausted nearer
                    (Nat.lt_of_succ_lt_succ enough)
                  exact ⟨cursor.current :: candidates, .passed notExhausted ended moved judged searched,
                    Nat.succ_le_succ short⟩

def Searches (generator : WeeklyWalk) : List Moment → Answer × Cursor → Prop :=
  Search generator.course generator.filter generator.cursor

variable {ending : Ending} {generator : WeeklyWalk} {rule : Rule} {start : DateTime}
  {calendar : Calendar}

theorem filter_advance (generator : WeeklyWalk) : generator.advance.2.filter = generator.filter := by
  unfold advance
  split <;> rfl

/-- Between the calls a generator keeps its course and its filter. -/
theorem Sound.kept_after (sound : Sound ending generator) (calls : Nat) :
    Sound ending (generator.after calls) ∧ (generator.after calls).course = generator.course ∧
      (generator.after calls).filter = generator.filter := by
  induction calls generalizing generator with
  | zero => exact ⟨sound, rfl, rfl⟩
  | succ calls ih =>
      obtain ⟨soundAfter, course_eq, filter_eq⟩ := ih sound.advance
      exact ⟨soundAfter, course_eq.trans (walked_of_advance generator).1,
        filter_eq.trans (filter_advance generator)⟩

/-- A generator wants some weekday, in each of its weeks. -/
theorem exists_entry_of_build (built : build rule start calendar = .ok generator) :
    generator.filter.ordinals = false ∧ ∃ entry, entry ∈ generator.filter.entries := by
  unfold build at built
  split at built
  · contradiction
  · split at built
    · contradiction
    · next course cursor _ =>
        split at built
        · contradiction
        · next chosen isChosen =>
            cases built
            refine ⟨rfl, ?_⟩
            unfold entries at isChosen
            split at isChosen
            · obtain ⟨weekday, _, rfl⟩ := Option.map_eq_some_iff.mp isChosen
              exact ⟨_, List.mem_singleton_self _⟩
            · next notEmpty =>
                cases isChosen
                exact List.exists_mem_of_ne_nil _ (mt List.isEmpty_iff.mpr notEmpty)

/-- In a calendar of one offset, whatever the rule and the calls made before, a call looks at seven
candidates at most before it gives one out, finishes or breaks off. -/
theorem search_length_le_seven {offset : Int} (valid : rule.Valid) (coherent : start.Coherent)
    (constant : ∀ instant, calendar.zone.offsetAt instant = offset)
    (built : build rule start calendar = .ok generator) (calls : Nat) :
    let reached := generator.after calls
    ∃ candidates, reached.Searches candidates (reached.advance.1, reached.advance.2.cursor) ∧
      candidates.length ≤ 7 ∧
      ∀ others result, reached.Searches others result →
        others = candidates ∧ result = (reached.advance.1, reached.advance.2.cursor) := by
  intro reached
  obtain ⟨sound, course_eq, filter_eq⟩ := (sound_of_build valid coherent built).kept_after calls
  obtain ⟨ordinals, entry, member⟩ := exists_entry_of_build built
  obtain ⟨candidates, searched, short⟩ : ∃ candidates,
      reached.Searches candidates (reached.advance.1, reached.advance.2.cursor) ∧
        candidates.length ≤ 7 := by
    cases exhausted : reached.cursor.exhausted with
    | true =>
        rw [advance_of_exhausted exhausted]
        exact ⟨[], .exhausted exhausted, Nat.zero_le 7⟩
    | false =>
        have skipless : ∀ time, reached.course.calendar.zone.displaces time = false := by
          rw [course_eq, (begins_of_build built).calendar_eq]
          exact Zone.not_displaces_of_offsetAt constant
        have near := entry.weekday.daysSince_lt reached.cursor.current.wall.weekday
        obtain ⟨candidates, searched, short⟩ := @exists_search reached.course reached.filter
          reached.cursor entry (dayCount + 1) _ sound.positive skipless (filter_eq ▸ ordinals)
          (filter_eq ▸ member) sound.fits exhausted rfl (Nat.lt_trans near (by decide))
        rw [advance_eq_walk exhausted]
        exact ⟨candidates, searched, Nat.le_trans short near⟩
  exact ⟨candidates, searched, short, fun _ _ other => searched.unique other⟩

/-- Every other Monday from Tuesday, 2 January 2024 at 09:00 on. -/
def otherMondays : Rule where
  frequency := .weekly
  interval := 2
  weekdays := [.every .monday]

def tuesdayStart : Moment := ⟨⟨63839782800000000, by decide⟩, 0, .utc⟩

def otherMondaysWalk : WeeklyWalk :=
  ⟨⟨{}, 2, .never, none⟩, ⟨tuesdayStart, 0, false⟩, ⟨[.every .monday], false⟩⟩

theorem build_otherMondays :
    build otherMondays (.naive tuesdayStart.wall) {} = .ok otherMondaysWalk := rfl

theorem search_otherMondays :
    ∃ candidates, otherMondaysWalk.Searches candidates
        (otherMondaysWalk.advance.1, otherMondaysWalk.advance.2.cursor) ∧
      candidates.length ≤ 7 ∧
      ∀ others result, otherMondaysWalk.Searches others result → others = candidates ∧
        result = (otherMondaysWalk.advance.1, otherMondaysWalk.advance.2.cursor) :=
  search_length_le_seven (by decide) (DateTime.coherent_naive _) (fun _ => rfl) build_otherMondays 0

end WeeklyWalk

end Recurrence
