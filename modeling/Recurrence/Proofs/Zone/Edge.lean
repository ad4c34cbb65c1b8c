import Recurrence.Proofs.Zone.Clock

namespace Recurrence

/-! Which wall-clock times a zone can read.

A zone of one offset reads every time, and so does a plain one.  A zone that looks times up reads one
exactly if the instant at which the clocks show it lies in the calendar (`localize_eq_none_iff`), so it
reads all times but some of the first and of the last day (`day_of_localize_eq_none`).
-/

/-- The instant at which a clock ahead of UTC shows the time lies in the calendar. -/
def WallTime.InCalendar (time : WallTime) (offset : Int) : Prop :=
  0 ≤ (time.micros : Int) - offset ∧ (time.micros : Int) - offset < calendarMicros

instance (time : WallTime) (offset : Int) : Decidable (time.InCalendar offset) :=
  inferInstanceAs (Decidable (_ ∧ _))

namespace Zone

namespace History

variable {history : History} {first last turn : Int} {before after : Phase} {time : WallTime}

/-- Where nothing changes about a time, or it is not skipped, a reader needs no stride. -/
theorem phaseWithin_isSome_of_shown (turns : history.Turns first last turn before after) {fuel : Nat}
    (lower : first + 86400000000 ≤ time.micros) (upper : time.micros + 86400000000 ≤ last)
    (early : 86400000000 ≤ time.micros) (late : time.micros + 86400000000 < calendarMicros)
    (shown : readingAt turn before after time ≠ .skipped) :
    (history.phaseWithin false (fuel + 1) time).isSome = true := by
  obtain ⟨reading, reads⟩ := exists_read turns lower upper early late
  have isReading := read_eq turns lower upper reads
  cases cause : readingAt turn before after time with
  | once phase => simp only [phaseWithin, reads, isReading, cause, Option.isSome_some]
  | twice phase other => simp only [phaseWithin, reads, isReading, cause, Option.isSome_some]
  | skipped => exact absurd cause shown

/-- Enough strides lead back out of every gap, and no gap is near the ends of the calendar. -/
theorem phaseWithin_isSome (turns : history.Turns first last turn before after)
    (differ : before ≠ after) (strides : Nat) {fuel : Nat}
    (floor : turn + before.offset * 1000000 ≤ time.micros + 21600000000)
    (ceiling : (time.micros : Int) - after.offset * 1000000 < turn)
    (close : (time.micros : Int) - before.offset * 1000000 < turn + strides * 21600000000)
    (enough : strides < fuel) : (history.phaseWithin false fuel time).isSome = true := by
  have beforeNear := turns.beforeNear
  have afterNear := turns.afterNear
  have margins := turns.inside.resolve_left differ
  have size : calendarMicros = 315537897600000000 := rfl
  have wide := turns.widened differ
  induction strides generalizing time fuel with
  | zero =>
      obtain ⟨spare, rfl⟩ := Nat.exists_eq_add_of_lt enough
      refine phaseWithin_isSome_of_shown wide (by omega) (by omega) (by omega) (by omega) fun skipped => ?_
      have gap := readingAt_eq_skipped.mp skipped
      omega
  | succ strides ih =>
      obtain ⟨spare, rfl⟩ := Nat.exists_eq_add_of_lt enough
      by_cases skipped : readingAt turn before after time = .skipped
      · have gap := readingAt_eq_skipped.mp skipped
        have reads : history.read time = some .skipped :=
          (read_eq_skipped wide (by omega) (by omega)).mpr gap
        have back : (time.addSeconds (stride false)).isSome = true := by
          rw [WallTime.addSeconds, WallTime.addMicros, WallTime.ofMicros?_isSome, stride,
            if_neg Bool.false_ne_true]
          omega
        obtain ⟨earlier, moved⟩ := Option.isSome_iff_exists.1 back
        have sum := WallTime.micros_of_addSeconds moved
        rw [stride, if_neg Bool.false_ne_true] at sum
        simp only [phaseWithin, reads, moved, Option.bind]
        exact ih (by omega) (by omega) (by omega) (by omega)
      · exact phaseWithin_isSome_of_shown wide (by omega) (by omega) (by omega) (by omega) skipped

/-- A guess from a probe is right if nothing changes between it and the instant of the time, and that
instant lies in the calendar. -/
theorem guess_of_settled {phase : Phase} {probe : WallTime}
    (probed : history.phaseAt (Instant.unixSeconds (probe.instant 0)) = phase)
    (held : history.phaseAt (Instant.unixSeconds (time.instant (phase.offset * 1000000))) = phase) :
    history.guess time probe =
      if time.InCalendar (phase.offset * 1000000) then some (some phase) else none := by
  have bound := time.micros_lt
  have back : time.instant (phase.offset * 1000000) + phase.offset * 1000000 = (time.micros : Int) :=
    Int.sub_add_cancel _ _
  have isShown : (history.showAt (time.instant (phase.offset * 1000000))).isSome = true ↔
      time.InCalendar (phase.offset * 1000000) ∧ 0 ≤ (time.micros : Int) ∧ (time.micros : Int) < calendarMicros := by
    rw [showAt_isSome held, back]
    rfl
  rw [guess, probed]
  cases shown : history.showAt (time.instant (phase.offset * 1000000)) with
  | none =>
      rw [shown] at isShown
      have outside : ¬time.InCalendar (phase.offset * 1000000) := fun inside =>
        Bool.noConfusion (isShown.2 ⟨inside, by omega, by omega⟩)
      rw [if_neg outside]
      rfl
  | some answer =>
      rw [shown] at isShown
      obtain ⟨wall, shownPhase⟩ := answer
      obtain ⟨same, micros⟩ := eq_of_showAt shown
      rw [held] at same
      rw [same, back] at micros
      have isTime : wall = time := WallTime.eq_of_micros (Int.ofNat_inj.1 micros)
      rw [if_pos (isShown.1 rfl).1, same, isTime]
      simp only [bind, Option.bind, pure, if_true]

theorem addDays_isSome {days : Int} :
    (time.addDays days).isSome = true ↔
      0 ≤ (time.micros : Int) + days * 86400000000 ∧
        (time.micros : Int) + days * 86400000000 < calendarMicros := by
  rw [WallTime.addDays, WallTime.addMicros, WallTime.ofMicros?_isSome]

/-- Where nothing changes within a day of a time, a guess from a day near it gives its phase. -/
theorem guessFrom_of_settled {phase : Phase} {days : Int} {probe : WallTime}
    (near : -64800 ≤ phase.offset ∧ phase.offset ≤ 64800)
    (settled : ∀ instant : Int, time.micros - 86400000000 ≤ instant →
      instant ≤ time.micros + 86400000000 → history.phaseAt (Instant.unixSeconds instant) = phase)
    (isProbe : time.addDays days = some probe) (close : -1 ≤ days ∧ days ≤ 1) :
    history.guessFrom time days =
      if time.InCalendar (phase.offset * 1000000) then some (some phase) else none := by
  have held : history.phaseAt (Instant.unixSeconds (time.instant (phase.offset * 1000000))) = phase := by
    refine settled ((time.micros : Int) - phase.offset * 1000000) ?_ ?_ <;> omega
  have sum := WallTime.micros_of_addDays isProbe
  have place : probe.instant 0 = (probe.micros : Int) := by simp [WallTime.instant]
  rw [guessFrom, isProbe]
  refine guess_of_settled ?_ held
  rw [place]
  exact settled _ (by omega) (by omega)

/-- Where nothing changes within a day of a time, its instant decides alone. -/
theorem read_of_settled {phase : Phase} (near : -64800 ≤ phase.offset ∧ phase.offset ≤ 64800)
    (settled : ∀ instant : Int, time.micros - 86400000000 ≤ instant →
      instant ≤ time.micros + 86400000000 → history.phaseAt (Instant.unixSeconds instant) = phase) :
    history.read time =
      if time.InCalendar (phase.offset * 1000000) then some (.once phase) else none := by
  have size : calendarMicros = 315537897600000000 := rfl
  have bound := time.micros_lt
  have unguessed (days : Int) (noProbe : time.addDays days = none) :
      history.guessFrom time days = some none := by
    rw [guessFrom, noProbe]
  have before := @addDays_isSome time (-1)
  have after := @addDays_isSome time 1
  rw [read, guesses]
  cases isBefore : time.addDays (-1) with
  | some earlier =>
      rw [guessFrom_of_settled near settled isBefore (by decide)]
      cases isAfter : time.addDays 1 with
      | some later =>
          rw [guessFrom_of_settled near settled isAfter (by decide)]
          split
          · simp [Reading.ofGuesses]
          · rfl
      | none =>
          rw [unguessed 1 isAfter]
          split <;> rfl
  | none =>
      rw [unguessed (-1) isBefore]
      cases isAfter : time.addDays 1 with
      | some later =>
          rw [guessFrom_of_settled near settled isAfter (by decide)]
          split <;> rfl
      | none =>
          rw [isBefore] at before
          rw [isAfter] at after
          simp only [Option.isSome_none, Bool.false_eq_true, false_iff] at before after
          omega

/-- A day from its ends the calendar holds the instants of all times. -/
theorem phaseFor_isSome_of_inner (early : 86400000000 ≤ time.micros)
    (late : time.micros + 86400000000 < calendarMicros) :
    (history.phaseFor .reader false time).isSome = true := by
  have opened : history.phaseFor .reader false time =
      history.phaseWithin false (14608235 + 1) time := rfl
  obtain ⟨turn, before, after, turns⟩ := history.exists_turns
    ((time.micros : Int) - 86400000000) ((time.micros : Int) + 86400000000) (by omega)
  rw [opened]
  by_cases skipped : readingAt turn before after time = .skipped
  · have gap := readingAt_eq_skipped.mp skipped
    have moved := turns.moved
    have differ : before ≠ after := by
      rintro rfl
      omega
    exact phaseWithin_isSome turns differ 5 (by omega) gap.2 (by omega) (by decide)
  · exact phaseWithin_isSome_of_shown turns (by omega) (by omega) early late skipped

theorem exists_settled (edge : time.micros < 86400000000 ∨ calendarMicros ≤ time.micros + 86400000000) :
    ∃ phase : Phase, (-64800 ≤ phase.offset ∧ phase.offset ≤ 64800) ∧
      ∀ instant : Int, time.micros - 86400000000 ≤ instant →
        instant ≤ time.micros + 86400000000 → history.phaseAt (Instant.unixSeconds instant) = phase := by
  have size : calendarMicros = 315537897600000000 := rfl
  obtain ⟨turn, before, after, turns⟩ := history.exists_turns
    ((time.micros : Int) - 86400000000) ((time.micros : Int) + 86400000000) (by omega)
  rcases turns.inside with rfl | ⟨afterStart, beforeEnd⟩
  · refine ⟨before, turns.beforeNear, fun instant lower upper => ?_⟩
    rw [turns.phase instant lower upper, ite_self]
  · rcases edge with early | late
    · refine ⟨before, turns.beforeNear, fun instant lower upper => ?_⟩
      rw [turns.phase instant lower upper, if_pos (by omega)]
    · refine ⟨after, turns.afterNear, fun instant lower upper => ?_⟩
      rw [turns.phase instant lower upper, if_neg (by omega)]

theorem phaseFor_isSome (history : History) (time : WallTime) :
    (history.phaseFor .reader false time).isSome = true ↔
      time.InCalendar ((Zone.varying history .reader).offsetAt time.micros) := by
  have bound := time.micros_lt
  by_cases inner : 86400000000 ≤ time.micros ∧ time.micros + 86400000000 < calendarMicros
  · have near := history.near_offsetAt .reader time.micros
    refine iff_of_true (phaseFor_isSome_of_inner inner.1 inner.2) ?_
    unfold WallTime.InCalendar
    omega
  · obtain ⟨phase, near, settled⟩ := @exists_settled history time (by omega)
    have offset : (Zone.varying history .reader).offsetAt time.micros = phase.offset * 1000000 := by
      rw [offsetAt, settled time.micros (by omega) (by omega)]
    have opened : history.phaseFor .reader false time =
        history.phaseWithin false (14608235 + 1) time := rfl
    rw [offset, opened, phaseWithin, read_of_settled near settled]
    by_cases inside : time.InCalendar (phase.offset * 1000000) <;> simp [inside]

theorem read_isSome (history : History) (manner : Manner) (time : WallTime) :
    (history.read time).isSome = true ↔
      time.InCalendar ((Zone.varying history manner).offsetAt time.micros) := by
  have bound := time.micros_lt
  by_cases inner : 86400000000 ≤ time.micros ∧ time.micros + 86400000000 < calendarMicros
  · obtain ⟨turn, before, after, turns⟩ := history.exists_turns
      ((time.micros : Int) - 86400000000) ((time.micros : Int) + 86400000000) (by omega)
    obtain ⟨reading, reads⟩ := exists_read turns (by omega) (by omega) inner.1 inner.2
    have near := history.near_offsetAt manner time.micros
    refine iff_of_true (Option.isSome_iff_exists.mpr ⟨reading, reads⟩) ?_
    unfold WallTime.InCalendar
    omega
  · obtain ⟨phase, near, settled⟩ := @exists_settled history time (by omega)
    have offset : (Zone.varying history manner).offsetAt time.micros = phase.offset * 1000000 := by
      rw [offsetAt, settled time.micros (by omega) (by omega)]
    rw [offset, read_of_settled near settled]
    by_cases inside : time.InCalendar (phase.offset * 1000000) <;> simp [inside]

/-- A time that the clocks show at an instant of the calendar has its own instant there. -/
theorem inCalendar_of_clock {manner : Manner} {instant : Int}
    (inside : 0 ≤ instant ∧ instant < calendarMicros)
    (shown : (Zone.varying history manner).clock instant = time.micros) :
    time.InCalendar ((Zone.varying history manner).offsetAt time.micros) := by
  have bound := time.micros_lt
  by_cases inner : 86400000000 ≤ time.micros ∧ time.micros + 86400000000 < calendarMicros
  · have near := history.near_offsetAt manner time.micros
    unfold WallTime.InCalendar
    omega
  · obtain ⟨lower, upper⟩ := history.near_of_clock shown
    obtain ⟨phase, near, settled⟩ := @exists_settled history time (by omega)
    have held : (Zone.varying history manner).offsetAt instant = phase.offset * 1000000 := by
      rw [offsetAt, settled instant (by omega) (by omega)]
    have offset : (Zone.varying history manner).offsetAt time.micros = phase.offset * 1000000 := by
      rw [offsetAt, settled time.micros (by omega) (by omega)]
    rw [clock, held] at shown
    rw [offset]
    unfold WallTime.InCalendar
    omega

end History

variable {zone : Zone} {time : WallTime}

theorem shift_isSome {instant offset : Int} :
    (at.shift zone instant offset).isSome = true ↔ (0 ≤ instant ∧ instant < calendarMicros) ∧
      0 ≤ instant + offset ∧ instant + offset < calendarMicros := by
  rw [← WallTime.ofMicros?_isSome, ← WallTime.ofMicros?_isSome, at.shift]
  cases WallTime.ofMicros? instant <;> cases WallTime.ofMicros? (instant + offset) <;> simp

/-- A time cannot be read exactly if the zone looks times up and its clocks show this one at an instant
outside the calendar. -/
theorem localize_eq_none_iff :
    zone.localize time = none ↔
      zone.consults = true ∧ ¬time.InCalendar (zone.offsetAt time.micros) := by
  cases zone with
  | steady | fixed =>
      exact iff_of_false (Option.some_ne_none _) fun both => Bool.false_ne_true both.1
  | varying history manner =>
      cases manner with
      | reader =>
          rw [← History.phaseFor_isSome, Option.not_isSome_iff_eq_none, localize, localizeWith,
            Option.map_eq_none_iff]
          exact (and_iff_right rfl).symm
      | plain key mark =>
          exact iff_of_false (Option.some_ne_none _) fun both => Bool.false_ne_true both.1

/-- An instant is shown exactly if both it and what the clocks show at it lie in the calendar. -/
theorem at_isSome {instant : Int} :
    (zone.at instant).isSome = true ↔ (0 ≤ instant ∧ instant < calendarMicros) ∧
      0 ≤ zone.clock instant ∧ zone.clock instant < calendarMicros := by
  cases zone with
  | steady name offset => exact shift_isSome
  | fixed offset key mark => exact shift_isSome
  | varying history manner =>
      rw [«at», Option.isSome_map]
      exact History.showAt_isSome rfl

/-- Only times of the first and of the last day cannot be read. -/
theorem day_of_localize_eq_none (unread : zone.localize time = none) :
    time.day = 0 ∨ time.day + 1 = dayCount := by
  have size : calendarMicros = 315537897600000000 := rfl
  have days : dayCount = 3652059 := rfl
  have bound := time.micros_lt
  obtain ⟨varies, outside⟩ := localize_eq_none_iff.1 unread
  cases zone with
  | steady | fixed => contradiction
  | varying history manner =>
      have near := history.near_offsetAt manner time.micros
      simp only [WallTime.InCalendar, WallTime.day, microsPerDay] at outside ⊢
      omega

end Zone

end Recurrence
