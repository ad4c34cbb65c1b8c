import Recurrence.Proofs.Zone.Reading

namespace Recurrence

/-! What the clocks of a zone show, and how the order of wall-clock times compares with the order of
the instants that they are read as.

`Zone.clock` tells what a zone shows at any instant.  A time that a zone does not skip is shown at the
instant that it is read as; a skipped one is read as an instant at which the clocks are ahead of it by
the length of the gap.  So a later wall-clock time is read as a later instant unless the earlier one is
skipped and the clocks have been put forward past the later one: `Zone.lt_iff_clock_lt`.
-/

namespace Zone

/-- The microseconds that the clocks of a zone are ahead of UTC at an instant. -/
def offsetAt (zone : Zone) (instant : Int) : Int :=
  match zone with
  | .steady _ offset => offset * 1000000
  | .varying history _ => (history.phaseAt (Instant.unixSeconds instant)).offset * 1000000
  | .fixed offset _ _ => offset

/-- What the clocks of a zone show at an instant, in microseconds since midnight of day 0. -/
def clock (zone : Zone) (instant : Int) : Int := instant + zone.offsetAt instant

/-- Whether a zone never shows a wall-clock time because its clocks are put forward past it. -/
def skips (zone : Zone) (time : WallTime) : Bool :=
  match zone with
  | .varying history _ => history.read time == some .skipped
  | _ => false

/-- Whether a zone shows a wall-clock time twice because its clocks are put back over it. -/
def repeats (zone : Zone) (time : WallTime) : Bool :=
  match zone with
  | .varying history _ =>
      match history.read time with
      | some (.twice _ _) => true
      | _ => false
  | _ => false

end Zone

/-- A moment stands as dates of its zone do: unless the zone looks times up, its clocks show the moment,
or it is what the zone reads for a time that they skip. -/
def Moment.Coherent (moment : Moment) : Prop :=
  moment.zone.consults = false →
    moment.zone.clock moment.instant = moment.wall.micros ∨
      moment.zone.localize moment.wall = some moment

theorem Moment.lt_iff {earlier later : Moment} :
    earlier < later ↔ (earlier.wall.micros : Int) - earlier.offset <
      later.wall.micros - later.offset :=
  Iff.rfl

theorem Moment.le_iff {earlier later : Moment} :
    earlier ≤ later ↔ (earlier.wall.micros : Int) - earlier.offset ≤
      later.wall.micros - later.offset :=
  Iff.rfl

namespace Zone

theorem eq_of_at {zone : Zone} {instant : Int} {moment : Moment}
    (shown : zone.at instant = some moment) :
    moment.zone = zone ∧ moment.offset = zone.offsetAt instant ∧
      (moment.wall.micros : Int) = zone.clock instant := by
  cases zone with
  | steady | fixed =>
      simp only [«at», at.shift, Option.pure_def, Option.bind_eq_bind, Option.bind_eq_some_iff,
        Option.some.injEq] at shown
      obtain ⟨_, _, wall, made, rfl⟩ := shown
      exact ⟨rfl, rfl, WallTime.ofMicros?_eq_some.1 made⟩
  | varying history manner =>
      simp only [«at», Option.map_eq_some_iff] at shown
      obtain ⟨⟨wall, phase⟩, shown, rfl⟩ := shown
      obtain ⟨phaseIs, wallIs⟩ := History.eq_of_showAt shown
      refine ⟨rfl, ?_, ?_⟩
      · rw [offsetAt, ← phaseIs]
      · rw [clock, offsetAt, ← phaseIs]
        exact wallIs

theorem instant_of_at {zone : Zone} {instant : Int} {moment : Moment}
    (shown : zone.at instant = some moment) : moment.instant = instant := by
  obtain ⟨_, offset, wall⟩ := eq_of_at shown
  have sum : (moment.wall.micros : Int) = instant + zone.offsetAt instant := wall
  change (moment.wall.micros : Int) - moment.offset = instant
  rw [offset, sum]
  omega

theorem eq_utc_of_at {instant : Int} {moment : Moment} (shown : utc.at instant = some moment) :
    moment = ⟨moment.wall, 0, utc⟩ := by
  obtain ⟨zone, offset, _⟩ := eq_of_at shown
  obtain ⟨wall, _, _⟩ := moment
  cases zone
  cases offset
  rfl

/-- The offset of a moment is the one in force at its instant if the clocks show it there. -/
theorem offset_of_clock {zone : Zone} {moment : Moment}
    (shown : zone.clock moment.instant = moment.wall.micros) :
    zone.offsetAt moment.instant = moment.offset := by
  have opened : (moment.wall.micros : Int) - moment.offset = moment.instant := rfl
  rw [clock] at shown
  omega

theorem offsetAt_of_constant {zone : Zone} {offset : Int}
    (constant : zone.constantOffset? = some offset) (instant : Int) :
    zone.offsetAt instant = offset := by
  cases zone with
  | steady | fixed => exact Option.some.inj constant
  | varying history manner => contradiction

theorem offset_of_localizeWith {zone : Zone} {offset : Int} {time : WallTime} {choice : Bool}
    {moment : Moment} (constant : zone.constantOffset? = some offset)
    (read : zone.localizeWith time choice = some moment) : moment.offset = offset := by
  cases zone with
  | steady | fixed =>
      simp only [localizeWith, Option.some.injEq] at read
      simp only [constantOffset?, Option.some.injEq] at constant
      rw [← read, constant]
  | varying history manner => contradiction

theorem offset_of_localize {zone : Zone} {offset : Int} {time : WallTime} {moment : Moment}
    (constant : zone.constantOffset? = some offset) (read : zone.localize time = some moment) :
    moment.offset = offset :=
  offset_of_localizeWith constant read

theorem offset_of_localize_varying {history : History} {manner : Manner} {time : WallTime}
    {moment : Moment} (read : (Zone.varying history manner).localize time = some moment) :
    ∃ phase, history.phaseFor manner false time = some phase ∧
      moment.offset = phase.offset * 1000000 := by
  simp only [localize, localizeWith, Option.map_eq_some_iff] at read
  obtain ⟨phase, found, rfl⟩ := read
  exact ⟨phase, found, rfl⟩

/-- A zone whose offset changes has a history. -/
theorem exists_history {zone : Zone} (varies : zone.constantOffset? = none) :
    ∃ history manner, zone = .varying history manner := by
  cases zone with
  | steady | fixed => contradiction
  | varying history manner => exact ⟨history, manner, rfl⟩

end Zone

theorem Moment.Coherent.offset_eq {moment : Moment} {offset : Int} (coherent : moment.Coherent)
    (constant : moment.zone.constantOffset? = some offset) : moment.offset = offset := by
  have stands : moment.zone.consults = false := by
    cases zoneIs : moment.zone with
    | steady | fixed => rfl
    | varying history manner =>
        rw [zoneIs] at constant
        contradiction
  rcases coherent stands with shown | read
  · rw [← Zone.offset_of_clock shown, Zone.offsetAt_of_constant constant]
  · exact Zone.offset_of_localize constant read

namespace Zone

/-- What a zone does with the wall-clock times near a time: it is a shift by one offset, or there is
one turn to consider. -/
theorem clock_of_turns {history : History} {manner : Manner} {first last turn : Int}
    {before after : Phase} (turns : history.Turns first last turn before after) {instant : Int}
    (lower : first ≤ instant) (upper : instant ≤ last) :
    (Zone.varying history manner).clock instant =
      instant + (if instant < turn then before else after).offset * 1000000 := by
  rw [clock, offsetAt, turns.phase instant lower upper]

section Turns

variable {history : History} {manner : Manner} {first last turn : Int} {before after : Phase}
  {time : WallTime}

theorem skips_of_turns (turns : history.Turns first last turn before after)
    (lower : first + 86400000000 ≤ time.micros) (upper : time.micros + 86400000000 ≤ last) :
    (Zone.varying history manner).skips time = true ↔
      turn ≤ (time.micros : Int) - before.offset * 1000000 ∧
        (time.micros : Int) - after.offset * 1000000 < turn := by
  rw [← History.read_eq_skipped turns lower upper]
  exact beq_iff_eq

theorem repeats_of_turns (turns : history.Turns first last turn before after)
    (lower : first + 86400000000 ≤ time.micros) (upper : time.micros + 86400000000 ≤ last) :
    (Zone.varying history manner).repeats time = true ↔
      (time.micros : Int) - before.offset * 1000000 < turn ∧
        turn ≤ (time.micros : Int) - after.offset * 1000000 := by
  rw [← History.read_eq_twice turns lower upper, repeats]
  split
  · next early late read => simp [read]
  · next other => simp only [Bool.false_eq_true, false_iff, not_exists]; exact other

/-- In which phase a time is read about a turn, and on which side of the turn its instant then lies. -/
theorem History.offset_cases (turns : history.Turns first last turn before after) {phase : Phase}
    (lower : first + 86400000000 ≤ time.micros) (upper : time.micros + 86400000000 ≤ last)
    (found : history.phaseFor manner false time = some phase) :
    phase.offset = before.offset ∧ ((time.micros : Int) - before.offset * 1000000 < turn ∨
        (time.micros : Int) - after.offset * 1000000 < turn) ∨
      phase.offset = after.offset ∧ turn ≤ (time.micros : Int) - after.offset * 1000000 := by
  have choice := offset_chosen manner before after
  rw [offset_of_phaseFor turns lower upper found, offsetAbout_eq]
  split_ifs <;> omega

end Turns

theorem History.near_offsetAt (history : History) (manner : Manner) (instant : Int) :
    -64800000000 ≤ (Zone.varying history manner).offsetAt instant ∧
      (Zone.varying history manner).offsetAt instant ≤ 64800000000 := by
  obtain ⟨turn, before, after, turns⟩ :=
    history.exists_turns instant instant (by omega)
  have beforeNear := turns.beforeNear
  have afterNear := turns.afterNear
  rw [offsetAt, turns.phase instant (Int.le_refl _) (Int.le_refl _)]
  split <;> omega

theorem History.near_of_clock (history : History) {manner : Manner} {instant shown : Int}
    (same : (Zone.varying history manner).clock instant = shown) :
    shown - 64800000000 ≤ instant ∧ instant ≤ shown + 64800000000 := by
  have near := history.near_offsetAt manner instant
  simp only [clock] at same
  omega

theorem History.near_phaseFor {history : History} {manner : Manner} {time : WallTime} {phase : Phase}
    (found : history.phaseFor manner false time = some phase) :
    -64800 ≤ phase.offset ∧ phase.offset ≤ 64800 := by
  obtain ⟨turn, before, after, turns⟩ := history.exists_turns
    ((time.micros : Int) - 86400000000) ((time.micros : Int) + 86400000000) (by omega)
  have beforeNear := turns.beforeNear
  have afterNear := turns.afterNear
  have offset := History.offset_cases turns (by omega) (by omega) found
  omega

/-- Two times at most a day and a half apart are compared by what the clocks show about the one turn that
they see. -/
theorem History.lt_iff_clock_lt {history : History} {manner : Manner} {first second : WallTime}
    {early late : Phase}
    (foundFirst : history.phaseFor manner false first = some early)
    (foundSecond : history.phaseFor manner false second = some late)
    (increasing : first.micros < second.micros)
    (close : second.micros ≤ first.micros + 129600000000) :
    (first.micros : Int) - early.offset * 1000000 < second.micros - late.offset * 1000000 ↔
      (Zone.varying history manner).clock ((first.micros : Int) - early.offset * 1000000) < second.micros ∨
        (Zone.varying history manner).skips second = true := by
  obtain ⟨turn, before, after, turns⟩ := history.exists_turns
    ((first.micros : Int) - 86400000000) ((first.micros : Int) + 216000000000) (by omega)
  have beforeNear := turns.beforeNear
  have afterNear := turns.afterNear
  have earlyNear := near_phaseFor foundFirst
  rw [skips_of_turns turns (by omega) (by omega), clock_of_turns turns (by omega) (by omega),
    offset_of_phaseFor turns (by omega) (by omega) foundFirst,
    offset_of_phaseFor turns (by omega) (by omega) foundSecond, offsetAbout_eq, offsetAbout_eq]
  -- Of a repeated hour both times are read in the same phase, whichever it is.
  have choice := offset_chosen manner before after
  generalize (manner.chosen before after).offset = chosen at *
  rcases choice with rfl | rfl
  · split_ifs <;> omega
  · split_ifs <;> omega

/-- A later wall-clock time is read as a later instant exactly if the clocks have not been put forward
past it at the earlier instant, or both are skipped together. -/
theorem lt_iff_clock_lt {zone : Zone} {first second : WallTime} {earlier later : Moment}
    (readFirst : zone.localize first = some earlier)
    (readSecond : zone.localize second = some later)
    (increasing : first.micros < second.micros) :
    earlier < later ↔ zone.clock earlier.instant < second.micros ∨ zone.skips second = true := by
  have firstWall := wall_of_localize readFirst
  have secondWall := wall_of_localize readSecond
  subst firstWall secondWall
  rw [Moment.lt_iff]
  cases zone with
  | steady | fixed =>
      rw [offset_of_localize rfl readFirst, offset_of_localize rfl readSecond]
      simp only [clock, offsetAt, skips, Bool.false_eq_true, or_false, Moment.instant,
        WallTime.instant, offset_of_localize rfl readFirst]
      omega
  | varying history manner =>
      obtain ⟨early, foundFirst, earlyIs⟩ := offset_of_localize_varying readFirst
      obtain ⟨late, foundSecond, lateIs⟩ := offset_of_localize_varying readSecond
      rw [earlyIs, lateIs]
      have opened : earlier.instant = (earlier.wall.micros : Int) - early.offset * 1000000 := by
        rw [← earlyIs]
        rfl
      rw [opened]
      by_cases close : later.wall.micros ≤ earlier.wall.micros + 129600000000
      · exact History.lt_iff_clock_lt foundFirst foundSecond increasing close
      · have earlyNear := History.near_phaseFor foundFirst
        have lateNear := History.near_phaseFor foundSecond
        have shownNear := history.near_offsetAt manner
          ((earlier.wall.micros : Int) - early.offset * 1000000)
        refine iff_of_true (by omega) (.inl ?_)
        simp only [clock]
        omega

/-- A time that is at least a day ahead of the clocks is read as a later instant. -/
theorem lt_of_clock_add_day_le {zone : Zone} {instant : Int} {time : WallTime} {moment : Moment}
    (read : zone.localize time = some moment)
    (ahead : zone.clock instant + 86400000000 ≤ time.micros) :
    instant < (time.micros : Int) - moment.offset := by
  cases zone with
  | steady | fixed =>
      rw [offset_of_localize rfl read]
      simp only [clock, offsetAt] at ahead
      omega
  | varying history manner =>
      obtain ⟨phase, found, same⟩ := offset_of_localize_varying read
      rw [same]
      by_cases early : instant + 86400000000 ≤ time.micros
      · have near := History.near_phaseFor found
        omega
      · have upper : instant ≤ (time.micros : Int) + 86400000000 := by
          have shownNear := history.near_offsetAt manner instant
          simp only [clock] at ahead
          omega
        obtain ⟨turn, before, after, turns⟩ := history.exists_turns
          ((time.micros : Int) - 86400000000) ((time.micros : Int) + 86400000000) (by omega)
        have moved := turns.moved
        have offset := History.offset_cases turns (by omega) (by omega) found
        rw [clock_of_turns turns (by omega) upper] at ahead
        split_ifs at ahead <;> omega

/-- No change moves the clocks by more than a day, so a time that is a day later is read as an instant
that is not earlier. -/
theorem le_of_add_day_le {zone : Zone} {first second : WallTime} {earlier later : Moment}
    (readFirst : zone.localize first = some earlier)
    (readSecond : zone.localize second = some later)
    (apart : first.micros + 86400000000 ≤ second.micros) : earlier ≤ later := by
  have firstWall := wall_of_localize readFirst
  have secondWall := wall_of_localize readSecond
  subst firstWall secondWall
  rw [Moment.le_iff]
  cases constant : zone.constantOffset? with
  | some offset =>
      rw [offset_of_localize constant readFirst, offset_of_localize constant readSecond]
      omega
  | none =>
      obtain ⟨history, manner, rfl⟩ := exists_history constant
      obtain ⟨early, foundFirst, earlyIs⟩ := offset_of_localize_varying readFirst
      obtain ⟨late, foundSecond, lateIs⟩ := offset_of_localize_varying readSecond
      have earlyNear := History.near_phaseFor foundFirst
      have lateNear := History.near_phaseFor foundSecond
      rw [earlyIs, lateIs]
      by_cases close : later.wall.micros ≤ earlier.wall.micros + 129600000000
      · obtain ⟨turn, before, after, turns⟩ := history.exists_turns
          ((earlier.wall.micros : Int) - 86400000000) ((earlier.wall.micros : Int) + 216000000000)
          (by omega)
        have moved := turns.moved
        have firstCases := History.offset_cases turns (by omega) (by omega) foundFirst
        have secondCases := History.offset_cases turns (by omega) (by omega) foundSecond
        omega
      · omega

/-- A time that a zone reads is shown at the instant that it is read as; at that of a skipped time the
clocks are ahead of it, by at most a day. -/
theorem clock_of_localize {zone : Zone} {time : WallTime} {moment : Moment}
    (read : zone.localize time = some moment) :
    (zone.skips time = false → zone.clock moment.instant = time.micros) ∧
      (zone.skips time = true → (time.micros : Int) < zone.clock moment.instant ∧
        zone.clock moment.instant ≤ time.micros + 86400000000) := by
  have wall := wall_of_localize read
  subst wall
  cases zone with
  | steady | fixed =>
      simp only [skips, Bool.false_eq_true, false_implies, and_true, forall_const, clock, offsetAt,
        Moment.instant, WallTime.instant, offset_of_localize rfl read]
      omega
  | varying history manner =>
      obtain ⟨phase, found, same⟩ := offset_of_localize_varying read
      have opened : moment.instant = (moment.wall.micros : Int) - phase.offset * 1000000 := by
        rw [← same]
        rfl
      obtain ⟨turn, before, after, turns⟩ := history.exists_turns
        ((moment.wall.micros : Int) - 86400000000)
        ((moment.wall.micros : Int) + 86400000000) (by omega)
      have near := History.near_phaseFor found
      have moved := turns.moved
      have skipped := @skips_of_turns _ manner _ _ _ _ _ moment.wall turns (by omega) (by omega)
      have offset := History.offset_cases turns (by omega) (by omega) found
      rw [← Bool.not_eq_true, skipped, opened, clock_of_turns turns (by omega) (by omega)]
      split_ifs <;> omega

theorem not_skips_of_clock {zone : Zone} {instant : Int} {time : WallTime}
    (shown : zone.clock instant = time.micros) : zone.skips time = false := by
  cases zone with
  | steady | fixed => rfl
  | varying history manner =>
      obtain ⟨lower, upper⟩ := history.near_of_clock shown
      obtain ⟨turn, before, after, turns⟩ := history.exists_turns
        ((time.micros : Int) - 86400000000) ((time.micros : Int) + 86400000000) (by omega)
      rw [← Bool.not_eq_true, skips_of_turns turns (by omega) (by omega)]
      rw [clock_of_turns turns (by omega) (by omega)] at shown
      split_ifs at shown <;> omega

/-- A time that is read once has one offset at whatever instant it is shown. -/
theorem offsetAt_of_once {history : History} {manner : Manner} {instant : Int} {time : WallTime}
    {phase : Phase}
    (shown : (Zone.varying history manner).clock instant = time.micros)
    (read : history.read time = some (.once phase)) :
    (Zone.varying history manner).offsetAt instant = phase.offset * 1000000 := by
  obtain ⟨lower, upper⟩ := history.near_of_clock shown
  obtain ⟨turn, before, after, turns⟩ := history.exists_turns
    ((time.micros : Int) - 86400000000) ((time.micros : Int) + 86400000000)
    (by omega)
  have reads := History.read_eq turns (by omega) (by omega) read
  rw [clock_of_turns turns (by omega) (by omega)] at shown
  rw [offsetAt, turns.phase instant (by omega) (by omega)]
  unfold readingAt at reads
  by_cases turned : instant < turn
  · rw [if_pos turned] at shown ⊢
    rw [if_pos (by omega)] at reads
    split at reads
    · contradiction
    · rw [Reading.once.inj reads]
  · rw [if_neg turned] at shown ⊢
    have later : turn ≤ (time.micros : Int) - after.offset * 1000000 := by omega
    simp only [if_pos later] at reads
    split at reads
    · contradiction
    · rw [Reading.once.inj reads]

end Zone

end Recurrence
