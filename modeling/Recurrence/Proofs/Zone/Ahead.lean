import Recurrence.Proofs.Calendar
import Recurrence.Proofs.Zone.Behind
import Recurrence.Proofs.Zone.Edge
import Recurrence.Proofs.Zone.Fraction

namespace Recurrence

/-! Wall-clock times from the second of a first date on.

A time without a fraction of a second that is not before the second of a first date is read as an
instant that is not earlier, with three exceptions: it is the very second of a first date that has a
fraction, the first date is read from a skipped time and so lies behind the gap, or the time is
repeated and its first instant is meant.  `Zone.NotBehind` says how far this goes.
-/

namespace WallTime

theorem lt_truncate_add (time : WallTime) : time.micros < time.truncate.micros + 1000000 := by
  have divided := Nat.div_add_mod time.micros 1000000
  simp only [truncate, microsecond, microsPerSecond]
  omega

theorem eq_truncate_of_lt {early late : WallTime} (whole : early.microsecond = 0)
    (second_le : late.truncate ≤ early) (before : early.micros < late.micros) :
    early = late.truncate := by
  have lower : late.truncate.micros ≤ early.micros := second_le
  have divided := Nat.div_add_mod late.micros 1000000
  simp only [truncate, microsecond, microsPerSecond] at whole lower
  refine eq_of_micros ?_
  simp only [truncate, microsecond, microsPerSecond]
  omega

end WallTime

namespace Zone

/-- How a date stands to a first one, if what it shows is not before the second of the first one. -/
structure NotBehind (zone : Zone) (first date : Moment) : Prop where
  second_le : first.wall.truncate ≤ date.wall
  le_iff_of_once : zone.skips first.wall = false → zone.repeats date.wall = false →
    (first ≤ date ↔ first.wall ≤ date.wall)
  le_iff_of_skips : zone.skips first.wall = true →
    (first ≤ date ↔ first.wall ≤ date.wall ∧
      (zone.skips date.wall = true ∨ zone.clock first.instant ≤ date.wall.micros))
  offset_le_of_lt : zone.repeats date.wall = true → date < first →
    zone.repeats first.wall = true ∧ first.offset ≤ date.offset
  within_day : first.instant < date.instant + 86401000000

theorem skips_truncate (zone : Zone) (time : WallTime) :
    zone.skips time.truncate = zone.skips time := by
  cases zone with
  | steady | fixed => rfl
  | varying history manner => simp only [skips, History.read_truncate]

theorem repeats_truncate (zone : Zone) (time : WallTime) :
    zone.repeats time.truncate = zone.repeats time := by
  cases zone with
  | steady | fixed => rfl
  | varying history manner => simp only [repeats, History.read_truncate]

theorem not_repeats_of_skips {zone : Zone} {time : WallTime} (skipped : zone.skips time = true) :
    zone.repeats time = false := by
  cases zone with
  | steady | fixed => rfl
  | varying history manner =>
      simp only [skips, beq_iff_eq] at skipped
      simp only [repeats, skipped]

end Zone

namespace Zone

variable {history : History} {manner : Manner} {first date : Moment}

theorem notBehind_of_constant {zone : Zone} {offset : Int} (constant : zone.constantOffset? = some offset)
    (firstOffset : first.offset = offset) (dateOffset : date.offset = offset)
    (second_le : first.wall.truncate ≤ date.wall) : zone.NotBehind first date := by
  have lower : first.wall.truncate.micros ≤ date.wall.micros := second_le
  have close := first.wall.lt_truncate_add
  have ordered : first ≤ date ↔ first.wall ≤ date.wall := by
    rw [Moment.le_iff, firstOffset, dateOffset]
    change _ ↔ first.wall.micros ≤ date.wall.micros
    omega
  have within : (first.wall.micros : Int) - first.offset <
      date.wall.micros - date.offset + 86401000000 := by
    rw [firstOffset, dateOffset]
    omega
  cases zone with
  | steady | fixed => exact ⟨second_le, fun _ _ => ordered, nofun, nofun, within⟩
  | varying => contradiction

/-- About a turn a shown date has the offset from before it or the one from after it. -/
theorem History.offset_of_shown {first last turn : Int} {before after : Phase}
    (turns : history.Turns first last turn before after) {moment : Moment}
    (lower : first + 86400000000 ≤ moment.wall.micros)
    (upper : moment.wall.micros + 86400000000 ≤ last)
    (shown : (Zone.varying history manner).clock moment.instant = moment.wall.micros) :
    moment.offset = before.offset * 1000000 ∧
        (moment.wall.micros : Int) - before.offset * 1000000 < turn ∨
      moment.offset = after.offset * 1000000 ∧ turn ≤ (moment.wall.micros : Int) - after.offset * 1000000 := by
  have opened : (moment.wall.micros : Int) - moment.offset = moment.instant := rfl
  have near := history.near_of_clock shown
  rw [clock_of_turns turns (by omega) (by omega)] at shown
  split_ifs at shown with early
  · exact .inl ⟨by omega, by omega⟩
  · exact .inr ⟨by omega, by omega⟩

/-- A day and a half outweighs any two offsets. -/
theorem notBehind_of_far {zone : Zone}
    (firstNear : -64800000000 ≤ first.offset ∧ first.offset ≤ 64800000000)
    (dateNear : -64800000000 ≤ date.offset ∧ date.offset ≤ 64800000000)
    (reached : zone.clock first.instant ≤ first.wall.micros + 86400000000)
    (second_le : first.wall.truncate ≤ date.wall)
    (far : first.wall.micros + 129600000000 < date.wall.micros) : zone.NotBehind first date := by
  have firstOpened : (first.wall.micros : Int) - first.offset = first.instant := rfl
  have dateOpened : (date.wall.micros : Int) - date.offset = date.instant := rfl
  have wallLe : first.wall ≤ date.wall := by
    change first.wall.micros ≤ date.wall.micros
    omega
  have ordered : first ≤ date := by
    rw [Moment.le_iff]
    omega
  have within : (first.wall.micros : Int) - first.offset <
      date.wall.micros - date.offset + 86401000000 := by omega
  refine ⟨second_le, fun _ _ => iff_of_true ordered wallLe, fun _ => ?_, fun _ earlier => ?_, within⟩
  · exact iff_of_true ordered ⟨wallLe, .inr (by omega)⟩
  · exact absurd ordered (Int.not_le.mpr earlier)

variable {phase : Phase}

namespace History

theorem notBehind_of_shown
    (shown : (Zone.varying history manner).clock first.instant = first.wall.micros)
    (found : history.phaseFor manner false date.wall = some phase)
    (offset : date.offset = phase.offset * 1000000)
    (second_le : first.wall.truncate ≤ date.wall) (later : first.wall.micros ≤ date.wall.micros)
    (close : date.wall.micros ≤ first.wall.micros + 129600000000) :
    (Zone.varying history manner).NotBehind first date := by
  obtain ⟨turn, before, after, turns⟩ := history.exists_turns
    ((first.wall.micros : Int) - 86400000000) ((first.wall.micros : Int) + 216000000000) (by omega)
  have moved := turns.moved
  have firstOffset := offset_of_shown turns (by omega) (by omega) shown
  have dateOffset := offset_cases turns (by omega) (by omega) found
  have repeated := @repeats_of_turns _ manner _ _ _ _ _ date.wall turns (by omega) (by omega)
  have within : (first.wall.micros : Int) - first.offset <
      date.wall.micros - date.offset + 86401000000 := by omega
  refine ⟨second_le, fun _ once => ?_, fun skipped => ?_, fun twice earlier => ?_, within⟩
  · rw [← Bool.not_eq_true, repeated] at once
    rw [Moment.le_iff]
    exact iff_of_true (by omega) later
  · rw [not_skips_of_clock shown] at skipped
    contradiction
  · rw [Moment.lt_iff] at earlier
    rw [repeated] at twice
    rw [repeats_of_turns turns (by omega) (by omega)]
    omega

theorem notBehind_of_skipped (skipped : (Zone.varying history manner).skips first.wall = true)
    {firstPhase : Phase} (firstFound : history.phaseFor manner false first.wall = some firstPhase)
    (firstOffset : first.offset = firstPhase.offset * 1000000)
    (found : history.phaseFor manner false date.wall = some phase)
    (offset : date.offset = phase.offset * 1000000)
    (second_le : first.wall.truncate ≤ date.wall) (later : first.wall.micros ≤ date.wall.micros)
    (close : date.wall.micros ≤ first.wall.micros + 129600000000) :
    (Zone.varying history manner).NotBehind first date := by
  have firstOpened : (first.wall.micros : Int) - first.offset = first.instant := rfl
  obtain ⟨turn, before, after, turns⟩ := history.exists_turns
    ((first.wall.micros : Int) - 86400000000) ((first.wall.micros : Int) + 216000000000) (by omega)
  have moved := turns.moved
  have beforeNear := turns.beforeNear
  have gap := (skips_of_turns turns (by omega) (by omega)).mp skipped
  have firstRead := offset_cases turns (by omega) (by omega) firstFound
  have dateOffset := offset_cases turns (by omega) (by omega) found
  -- The first date is read in the phase before the gap, so its instant lies behind the gap.
  have behind : turn ≤ first.instant := by omega
  have clocks := @clock_of_turns _ manner _ _ _ _ _ turns first.instant (by omega) (by omega)
  rw [if_neg (Int.not_lt.mpr behind)] at clocks
  have dateSkips := @skips_of_turns _ manner _ _ _ _ _ date.wall turns (by omega) (by omega)
  have dateRepeats := @repeats_of_turns _ manner _ _ _ _ _ date.wall turns (by omega) (by omega)
  have within : (first.wall.micros : Int) - first.offset <
      date.wall.micros - date.offset + 86401000000 := by omega
  refine ⟨second_le, fun shown => ?_, fun _ => ?_, fun twice _ => ?_, within⟩
  · rw [shown] at skipped
    contradiction
  · have wallLe : first.wall ≤ date.wall := later
    rw [Moment.le_iff, and_iff_right wallLe, dateSkips, clocks]
    omega
  · rw [dateRepeats] at twice
    omega

/-- The second of a first date with a fraction is read as the whole time of that date is. -/
theorem notBehind_of_fraction
    (known : (Zone.varying history manner).clock first.instant = first.wall.micros ∨
      (Zone.varying history manner).skips first.wall = true ∧ first.offset = date.offset)
    (found : history.phaseFor manner false first.wall = some phase)
    (offset : date.offset = phase.offset * 1000000)
    (same : date.wall = first.wall.truncate) (earlier : date.wall.micros < first.wall.micros) :
    (Zone.varying history manner).NotBehind first date := by
  obtain ⟨turn, before, after, turns⟩ := history.exists_turns
    ((first.wall.micros : Int) - 86400000000) ((first.wall.micros : Int) + 216000000000) (by omega)
  have moved := turns.moved
  have dateOffset := offset_cases turns (by omega) (by omega) found
  have repeated := @repeats_of_turns _ manner _ _ _ _ _ first.wall turns (by omega) (by omega)
  have close := first.wall.lt_truncate_add
  rw [← same] at close
  have wallNotLe : ¬first.wall ≤ date.wall := Nat.not_le.mpr earlier
  have second_le : first.wall.truncate ≤ date.wall := by
    rw [same]
    exact Nat.le_refl _
  rcases known with shown | ⟨skipped, sameOffset⟩
  · have firstOffset := offset_of_shown turns (by omega) (by omega) shown
    have within : (first.wall.micros : Int) - first.offset <
        date.wall.micros - date.offset + 86401000000 := by omega
    refine ⟨second_le, fun _ once => ?_, fun skipped => ?_, fun twice before => ?_, within⟩
    · rw [same, repeats_truncate, ← Bool.not_eq_true, repeated] at once
      rw [Moment.le_iff]
      exact iff_of_false (by omega) wallNotLe
    · rw [not_skips_of_clock shown] at skipped
      contradiction
    · rw [Moment.lt_iff] at before
      rw [same, repeats_truncate] at twice
      exact ⟨twice, by omega⟩
  · have within : (first.wall.micros : Int) - first.offset <
        date.wall.micros - date.offset + 86401000000 := by omega
    refine ⟨second_le, fun shown => ?_, fun _ => ?_, fun twice _ => ?_, within⟩
    · rw [skipped] at shown
      contradiction
    · rw [Moment.le_iff]
      exact iff_of_false (by omega) fun ordered => wallNotLe ordered.1
    · rw [same, repeats_truncate, not_repeats_of_skips skipped] at twice
      contradiction

theorem notBehind_of_localize
    (known : (Zone.varying history manner).clock first.instant = first.wall.micros ∨
      (Zone.varying history manner).skips first.wall = true ∧
        (Zone.varying history manner).localize first.wall = some first)
    (read : (Zone.varying history manner).localize date.wall = some date)
    (whole : date.wall.microsecond = 0) (second_le : first.wall.truncate ≤ date.wall) :
    (Zone.varying history manner).NotBehind first date := by
  obtain ⟨phase, found, offset⟩ := offset_of_localize_varying read
  by_cases earlier : date.wall.micros < first.wall.micros
  · have same := WallTime.eq_truncate_of_lt whole second_le earlier
    rw [same, phaseFor_truncate] at found
    refine notBehind_of_fraction ?_ found offset same earlier
    rcases known with shown | ⟨skipped, localized⟩
    · exact .inl shown
    · obtain ⟨firstPhase, firstFound, firstOffset⟩ := offset_of_localize_varying localized
      rw [firstFound] at found
      rw [firstOffset, offset, Option.some.inj found]
      exact .inr ⟨skipped, rfl⟩
  · have later := Nat.not_lt.mp earlier
    have dateNear := near_phaseFor found
    rcases known with shown | ⟨skipped, localized⟩
    · have firstNear := history.near_offsetAt manner first.instant
      rw [offset_of_clock shown] at firstNear
      by_cases close : date.wall.micros ≤ first.wall.micros + 129600000000
      · exact notBehind_of_shown shown found offset second_le later close
      · exact notBehind_of_far firstNear (by omega) (by omega) second_le (Nat.not_le.mp close)
    · obtain ⟨firstPhase, firstFound, firstOffset⟩ := offset_of_localize_varying localized
      have firstNear := near_phaseFor firstFound
      have reached := ((clock_of_localize localized).2 skipped).2
      by_cases close : date.wall.micros ≤ first.wall.micros + 129600000000
      · exact notBehind_of_skipped skipped firstFound firstOffset found offset second_le later close
      · exact notBehind_of_far (by omega) (by omega) reached second_le (Nat.not_le.mp close)

end History

/-- A date that a zone reads from a whole second, not before that of a start, is not behind it but for
the exceptions of `NotBehind`. -/
theorem notBehind_of_localize {calendar : Calendar} {start : DateTime} (coherent : start.Coherent)
    (shows : calendar.localize start = some first)
    (read : calendar.zone.localize date.wall = some date) (whole : date.wall.microsecond = 0)
    (second_le : first.wall.truncate ≤ date.wall) : calendar.zone.NotBehind first date := by
  have known := Calendar.clock_or_skips coherent shows
  cases constant : calendar.zone.constantOffset? with
  | some offset =>
      have fits := Calendar.fits_of_shown coherent shows
      refine notBehind_of_constant constant (fits.coherent.offset_eq ?_)
        (offset_of_localize constant read) second_le
      rw [fits.zone_eq]
      exact constant
  | none =>
      obtain ⟨history, manner, zoneIs⟩ := exists_history constant
      rw [zoneIs] at known read ⊢
      exact History.notBehind_of_localize known read whole second_le

end Zone

end Recurrence
