import Recurrence.Proofs.Zone.Clock

namespace Recurrence

/-! The fraction of a second has no part in how a zone reads a wall-clock time.

The phases and changes of a history are whole seconds, so dropping the fraction of a time drops that of
its instant, and every guess for the shorter time is the guess for the whole one.
-/

def Instant.whole (instant : Instant) : Instant := instant / 1000000 * 1000000

theorem Instant.unixSeconds_whole (instant : Instant) :
    Instant.unixSeconds (Instant.whole instant) = Instant.unixSeconds instant := by
  unfold unixSeconds whole
  rw [Int.mul_ediv_cancel _ (by decide)]

namespace WallTime

theorem micros_truncate (time : WallTime) :
    (time.truncate.micros : Int) = Instant.whole time.micros := by
  have divided := Nat.div_add_mod time.micros 1000000
  simp only [truncate, microsecond, microsPerSecond, Instant.whole]
  omega

theorem truncate_of_microsecond {time : WallTime} (whole : time.microsecond = 0) :
    time.truncate = time := by
  cases time
  simp only [truncate, mk.injEq]
  exact congrArg _ whole

theorem microsecond_truncate (time : WallTime) : time.truncate.microsecond = 0 := by
  simp only [truncate, microsecond, microsPerSecond]
  omega

theorem instant_truncate (time : WallTime) (seconds : Int) :
    time.truncate.instant (seconds * 1000000) =
      Instant.whole (time.instant (seconds * 1000000)) := by
  have micros : (time.truncate.micros : Int) = (time.micros : Int) / 1000000 * 1000000 :=
    time.micros_truncate
  change (time.truncate.micros - seconds * 1000000 : Int) =
    (time.micros - seconds * 1000000) / 1000000 * 1000000
  omega

theorem ofMicros?_whole (micros : Int) :
    ofMicros? (Instant.whole micros) = (ofMicros? micros).map truncate := by
  have limit : calendarMicros = 315537897600 * 1000000 := rfl
  cases inside : ofMicros? micros with
  | some time =>
      rw [ofMicros?_eq_some] at inside
      rw [Option.map_some, ofMicros?_eq_some, micros_truncate, inside]
  | none =>
      unfold ofMicros? at inside ⊢
      split at inside
      · contradiction
      · next outside =>
          refine dif_neg ?_
          unfold Instant.whole
          omega

theorem addSeconds_truncate (time : WallTime) (seconds : Int) :
    time.truncate.addSeconds seconds = (time.addSeconds seconds).map truncate := by
  rw [addSeconds, addSeconds, addMicros, addMicros, ← ofMicros?_whole, micros_truncate]
  congr 1
  unfold Instant.whole
  omega

theorem addDays_truncate (time : WallTime) (days : Int) :
    time.truncate.addDays days = (time.addDays days).map truncate := by
  have asSeconds (moved : WallTime) : moved.addDays days = moved.addSeconds (days * 86400) := by
    rw [addDays, addSeconds, Int.mul_assoc]
    rfl
  rw [asSeconds, asSeconds, addSeconds_truncate]

end WallTime

namespace Zone.History

variable (history : History)

theorem showAt_whole (instant : Instant) :
    history.showAt (Instant.whole instant) =
      (history.showAt instant).map fun shown => (shown.1.truncate, shown.2) := by
  have moved (offset : Int) : Instant.whole instant + offset * 1000000 =
      Instant.whole (instant + offset * 1000000) := by
    change (instant / 1000000 * 1000000 : Int) + _ = (instant + offset * 1000000) / 1000000 * 1000000
    rw [Int.add_mul_ediv_right _ _ (by decide), Int.add_mul]
  simp only [showAt, Instant.unixSeconds_whole, moved, WallTime.ofMicros?_whole]
  cases WallTime.ofMicros? instant with
  | none => rfl
  | some _ =>
      cases WallTime.ofMicros?
        (instant + (history.phaseAt (Instant.unixSeconds instant)).offset * 1000000) <;> rfl

theorem phaseAt_truncate (time : WallTime) (seconds : Int) :
    history.phaseAt (Instant.unixSeconds (time.truncate.instant (seconds * 1000000))) =
      history.phaseAt (Instant.unixSeconds (time.instant (seconds * 1000000))) := by
  rw [WallTime.instant_truncate, Instant.unixSeconds_whole]

theorem guess_truncate (time probe : WallTime) :
    history.guess time.truncate probe.truncate = history.guess time probe := by
  have sameWall {shown : WallTime × Phase} {seconds : Int}
      (shows : history.showAt (time.instant (seconds * 1000000)) = some shown) :
      shown.1.truncate = time.truncate ↔ shown.1 = time := by
    have micros : (shown.1.micros : Int) =
        time.micros - seconds * 1000000 + shown.2.offset * 1000000 := (eq_of_showAt shows).2
    constructor
    · intro same
      have wholes := congrArg (fun wall : WallTime => (wall.micros : Int)) same
      simp only [WallTime.micros_truncate, Instant.whole] at wholes
      refine WallTime.eq_of_micros ?_
      omega
    · exact congrArg WallTime.truncate
  have probed := history.phaseAt_truncate probe 0
  rw [Int.zero_mul] at probed
  simp only [guess, probed, WallTime.instant_truncate, showAt_whole]
  cases shows : history.showAt (time.instant
      ((history.phaseAt (Instant.unixSeconds (probe.instant 0))).offset * 1000000)) with
  | none => rfl
  | some shown =>
      simp only [Option.map_some, Option.bind_eq_bind, Option.bind_some, Option.pure_def,
        sameWall shows]

theorem guessFrom_truncate (time : WallTime) (days : Int) :
    history.guessFrom time.truncate days = history.guessFrom time days := by
  simp only [guessFrom, WallTime.addDays_truncate]
  cases time.addDays days with
  | none => rfl
  | some probe => exact history.guess_truncate time probe

theorem read_truncate (time : WallTime) : history.read time.truncate = history.read time := by
  simp only [read, guesses, guessFrom_truncate]

theorem phaseWithin_truncate (saving : Bool) (strides : Nat) (time : WallTime) :
    history.phaseWithin saving strides time.truncate = history.phaseWithin saving strides time := by
  induction strides generalizing time with
  | zero => rfl
  | succ strides ih =>
      simp only [phaseWithin, read_truncate, WallTime.addSeconds_truncate]
      cases history.read time with
      | none => rfl
      | some reading =>
          cases reading with
          | once | twice => rfl
          | skipped =>
              cases time.addSeconds (stride saving) with
              | none => rfl
              | some earlier => exact ih earlier

theorem phaseStanding_truncate (later : Bool) (time : WallTime) :
    history.phaseStanding later time.truncate = history.phaseStanding later time := by
  have before := history.phaseAt_truncate time 86400
  have after := history.phaseAt_truncate time (-86400)
  simp only [Int.reduceMul, Int.reduceNeg] at before after
  simp only [phaseStanding, before, after, phaseAt_truncate]

theorem phaseFor_truncate (manner : Manner) (choice : Bool) (time : WallTime) :
    history.phaseFor manner choice time.truncate = history.phaseFor manner choice time := by
  cases manner with
  | reader => exact history.phaseWithin_truncate choice _ time
  | plain key mark => exact congrArg some (history.phaseStanding_truncate choice time)

end Zone.History

namespace Zone

variable (zone : Zone) (time : WallTime)

theorem localizeWith_truncate (choice : Bool) :
    zone.localizeWith time.truncate choice = (zone.localizeWith time choice).map Moment.truncate := by
  cases zone with
  | steady | fixed => rfl
  | varying history manner =>
      simp only [localizeWith, History.phaseFor_truncate, Option.map_map]
      rfl

theorem offsetAt_whole (zone : Zone) (instant : Instant) :
    zone.offsetAt (Instant.whole instant) = zone.offsetAt instant := by
  cases zone with
  | steady | fixed => rfl
  | varying history => rw [offsetAt, offsetAt, Instant.unixSeconds_whole]

/-- A date that is read in its zone is still read there once its fraction is dropped. -/
theorem exists_read_truncate {date : Moment}
    (read : ∃ choice, date.zone.localizeWith date.wall choice = some date) :
    ∃ choice, date.truncate.zone.localizeWith date.truncate.wall choice = some date.truncate := by
  obtain ⟨choice, read⟩ := read
  refine ⟨choice, ?_⟩
  change date.zone.localizeWith date.wall.truncate choice = some date.truncate
  rw [localizeWith_truncate, read, Option.map_some]

end Zone

end Recurrence
