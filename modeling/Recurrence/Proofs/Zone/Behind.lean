import Recurrence.Proofs.Zone.Clock

namespace Recurrence

/-! Wall-clock times that are not ahead of the clocks at some instant.

Such a time is read as an instant that is not later, unless the zone skips or repeats it: a skipped
time is put behind the gap, and of a repeated one the later instant may be meant.  `Zone.NotAhead`
says how far this goes.
-/

namespace Zone

/-- How a date stands to a last one at whose instant the clocks have reached what the date shows. -/
structure NotAhead (zone : Zone) (last date : Moment) : Prop where
  shown_le : (date.wall.micros : Int) ≤ zone.clock last.instant
  le_of_once : zone.skips date.wall = false → zone.repeats date.wall = false → date ≤ last
  within_day : date.instant ≤ last.instant + 86400000000
  lt_iff_of_skips : zone.skips date.wall = true →
    (last < date ↔ zone.clock last.instant < zone.clock date.instant)

/-- How the instant that a time is read as stands to an instant at which the clocks have reached the
time.  Only the one turn near the time can put the two in the other order. -/
theorem History.instant_of_reached {history : History} {manner : Manner} {time : WallTime} {phase : Phase}
    {instant seen : Int} (found : history.phaseFor manner false time = some phase)
    (seen_eq : seen = (time.micros : Int) - phase.offset * 1000000)
    (reached : (time.micros : Int) ≤ (Zone.varying history manner).clock instant) :
    ((Zone.varying history manner).skips time = false → (Zone.varying history manner).repeats time = false →
      seen ≤ instant) ∧ seen ≤ instant + 86400000000 ∧
    ((Zone.varying history manner).skips time = true → (instant < seen ↔
      (Zone.varying history manner).clock instant < (Zone.varying history manner).clock seen)) := by
  have phaseNear := near_phaseFor found
  have instantNear := history.near_offsetAt manner instant
  have seenNear := history.near_offsetAt manner seen
  have lower : (time.micros : Int) - 86400000000 ≤ instant := by
    simp only [clock] at reached
    omega
  by_cases close : instant ≤ (time.micros : Int) + 216000000000
  · obtain ⟨turn, before, after, turns⟩ := history.exists_turns
      ((time.micros : Int) - 86400000000) ((time.micros : Int) + 216000000000) (by omega)
    have moved := turns.moved
    have offset := offset_cases turns (by omega) (by omega) found
    rw [← Bool.not_eq_true, ← Bool.not_eq_true,
      skips_of_turns turns (by omega) (by omega), repeats_of_turns turns (by omega) (by omega),
      clock_of_turns turns lower close,
      clock_of_turns turns (by omega) (by omega)]
    rw [clock_of_turns turns lower close] at reached
    refine ⟨?_, ?_, ?_⟩
    · split_ifs at reached <;> omega
    · split_ifs at reached <;> omega
    · split_ifs at reached ⊢ <;> omega
  · simp only [clock] at reached ⊢
    exact ⟨fun _ _ => by omega, by omega, fun _ => by omega⟩

theorem notAhead_of_localize {zone : Zone} {last date : Moment}
    (read : zone.localize date.wall = some date)
    (reached : (date.wall.micros : Int) ≤ zone.clock last.instant) : zone.NotAhead last date := by
  cases zone with
  | steady | fixed =>
      have same : (date.wall.micros : Int) - date.offset ≤ last.instant := by
        rw [offset_of_localize rfl read]
        simp only [clock, offsetAt] at reached
        omega
      exact ⟨reached, fun _ _ => same, Int.le_trans same (by omega), fun skipped =>
        Bool.noConfusion skipped⟩
  | varying history manner =>
      obtain ⟨phase, found, offset⟩ := offset_of_localize_varying read
      have seen : date.instant = (date.wall.micros : Int) - phase.offset * 1000000 := by
        rw [← offset]
        rfl
      obtain ⟨once, within, skipped⟩ := History.instant_of_reached found seen reached
      exact ⟨reached, once, within, skipped⟩

/-- How an instant at which the clocks show a time stands to one at which they have reached it. -/
theorem instant_of_shown {zone : Zone} {time : WallTime} {instant seen : Int}
    (shown : zone.clock seen = time.micros) (reached : (time.micros : Int) ≤ zone.clock instant) :
    (zone.repeats time = false → seen ≤ instant) ∧ seen ≤ instant + 86400000000 := by
  cases zone with
  | steady | fixed =>
      simp only [clock, offsetAt] at shown reached
      exact ⟨fun _ => by omega, by omega⟩
  | varying history manner =>
      obtain ⟨lower, upper⟩ := history.near_of_clock shown
      have instantNear := history.near_offsetAt manner instant
      have first : (time.micros : Int) - 86400000000 ≤ instant := by
        simp only [clock] at reached
        omega
      by_cases close : instant ≤ (time.micros : Int) + 86400000000
      · obtain ⟨turn, before, after, turns⟩ := history.exists_turns
          ((time.micros : Int) - 86400000000) ((time.micros : Int) + 86400000000) (by omega)
        have moved := turns.moved
        rw [clock_of_turns turns (by omega) (by omega)] at shown reached
        rw [← Bool.not_eq_true, repeats_of_turns turns (by omega) (by omega)]
        constructor
        · intro once
          split_ifs at shown reached <;> omega
        · split_ifs at shown reached <;> omega
      · exact ⟨fun _ => by omega, by omega⟩

theorem notAhead_of_clock {zone : Zone} {last date : Moment}
    (shown : zone.clock date.instant = date.wall.micros)
    (reached : (date.wall.micros : Int) ≤ zone.clock last.instant) : zone.NotAhead last date := by
  obtain ⟨once, within⟩ := instant_of_shown shown reached
  refine ⟨reached, fun _ => once, within, fun skipped => ?_⟩
  rw [not_skips_of_clock shown] at skipped
  contradiction

theorem notAhead_of_coherent {last date : Moment} (stands : date.zone.consults = false)
    (coherent : date.Coherent) (reached : (date.wall.micros : Int) ≤ date.zone.clock last.instant) :
    date.zone.NotAhead last date :=
  (coherent stands).elim (notAhead_of_clock · reached) (notAhead_of_localize · reached)

end Zone

end Recurrence
