import Mathlib.Tactic.SplitIfs
import Recurrence.Proofs.Zone.Turn

namespace Recurrence.Zone

/-! How a zone reads a wall-clock time that lies within a day of the one change it sees.

A time is shown in the phase before the turn, in the phase after it, in both or in none: `readingAt`
tells which from the two instants that the time would have.  `History.read` agrees with it whenever it
answers at all, and `offset_of_phaseFor` gives the offset that is chosen in either manner.
-/

def readingAt (turn : Int) (before after : Phase) (time : WallTime) : Reading :=
  if (time.micros : Int) - before.offset * 1000000 < turn then
    if turn ≤ (time.micros : Int) - after.offset * 1000000 then .twice before after
    else .once before
  else if turn ≤ (time.micros : Int) - after.offset * 1000000 then .once after
  else .skipped

/-- The phase in which a repeated time is read: in standard time by a reader, else the first one. -/
def Manner.chosen (manner : Manner) (before after : Phase) : Phase :=
  match manner with
  | .reader => History.prefer false before after
  | .plain _ _ => before

/-- The offset in which a time is read about a turn. -/
def offsetAbout (manner : Manner) (turn : Int) (before after : Phase) (time : WallTime) : Int :=
  match readingAt turn before after time with
  | .once phase => phase.offset
  | .twice first second => (manner.chosen first second).offset
  | .skipped => before.offset

theorem offsetAbout_eq (manner : Manner) (turn : Int) (before after : Phase) (time : WallTime) :
    offsetAbout manner turn before after time =
      if turn ≤ (time.micros : Int) - after.offset * 1000000 then
        if (time.micros : Int) - before.offset * 1000000 < turn then
          (manner.chosen before after).offset
        else after.offset
      else before.offset := by
  unfold offsetAbout readingAt
  by_cases shownBefore : (time.micros : Int) - before.offset * 1000000 < turn <;>
    by_cases shownAfter : turn ≤ (time.micros : Int) - after.offset * 1000000 <;>
    simp [shownBefore, shownAfter]

theorem readingAt_eq_skipped {turn : Int} {before after : Phase} {time : WallTime} :
    readingAt turn before after time = .skipped ↔
      turn ≤ (time.micros : Int) - before.offset * 1000000 ∧
        (time.micros : Int) - after.offset * 1000000 < turn := by
  unfold readingAt
  split
  · split <;> simp <;> omega
  · split <;> simp <;> omega

theorem readingAt_eq_twice {turn : Int} {before after : Phase} {time : WallTime} :
    (∃ first second, readingAt turn before after time = .twice first second) ↔
      (time.micros : Int) - before.offset * 1000000 < turn ∧
        turn ≤ (time.micros : Int) - after.offset * 1000000 := by
  unfold readingAt
  split
  · split <;> simp <;> omega
  · split <;> simp <;> omega

theorem offset_prefer (saving : Bool) (first second : Phase) :
    (History.prefer saving first second).offset = first.offset ∨
      (History.prefer saving first second).offset = second.offset := by
  unfold History.prefer
  split <;> split <;> simp

theorem offset_chosen (manner : Manner) (first second : Phase) :
    (manner.chosen first second).offset = first.offset ∨
      (manner.chosen first second).offset = second.offset := by
  cases manner with
  | reader => exact offset_prefer false first second
  | plain key mark => exact .inl rfl

namespace History

variable {history : History} {first last turn : Int} {before after : Phase} {time : WallTime}

theorem eq_of_showAt {instant : Int} {time : WallTime} {phase : Phase}
    (shown : history.showAt instant = some (time, phase)) :
    phase = history.phaseAt (Instant.unixSeconds instant) ∧
      (time.micros : Int) = instant + phase.offset * 1000000 := by
  simp only [showAt, Option.pure_def, Option.bind_eq_bind, Option.bind_eq_some_iff,
    Option.some.injEq, Prod.mk.injEq] at shown
  obtain ⟨_, _, wall, made, rfl, rfl⟩ := shown
  exact ⟨rfl, WallTime.ofMicros?_eq_some.1 made⟩

/-- A guess from a probe is right exactly when the phase at the probe still holds at the instant that
it gives to the time. -/
theorem guess_eq (turns : history.Turns first last turn before after) {time probe : WallTime}
    {found : Option Phase}
    (lower : first + 86400000000 ≤ time.micros) (upper : time.micros + 86400000000 ≤ last)
    (probeLower : first ≤ probe.micros) (probeUpper : probe.micros ≤ last)
    (guessed : history.guess time probe = some found) :
    ∃ tried held : Phase,
      tried = (if (probe.micros : Int) < turn then before else after) ∧
      held = (if (time.micros : Int) - tried.offset * 1000000 < turn then before else after) ∧
      found = if held.offset = tried.offset then some held else none := by
  have probed : history.phaseAt (Instant.unixSeconds (probe.instant 0)) =
      if (probe.micros : Int) < turn then before else after := by
    have same : probe.instant 0 = (probe.micros : Int) := by simp [WallTime.instant]
    rw [same]
    exact turns.phase _ probeLower probeUpper
  simp only [guess, Option.pure_def, Option.bind_eq_bind, Option.bind_eq_some_iff,
    Option.some.injEq] at guessed
  obtain ⟨⟨wall, held⟩, shown, rfl⟩ := guessed
  rw [probed] at shown
  refine ⟨_, held, rfl, ?_, ?_⟩
  · have near : -64800 ≤ (if (probe.micros : Int) < turn then before else after).offset ∧
        (if (probe.micros : Int) < turn then before else after).offset ≤ 64800 := by
      split
      · exact turns.beforeNear
      · exact turns.afterNear
    rw [(eq_of_showAt shown).1]
    exact turns.phase _ (by simp only [WallTime.instant]; omega)
      (by simp only [WallTime.instant]; omega)
  · have wallIs := (eq_of_showAt shown).2
    have same : wall = time ↔ held.offset =
        (if (probe.micros : Int) < turn then before else after).offset := by
      simp only [WallTime.instant] at wallIs
      constructor
      · rintro rfl
        omega
      · intro equal
        rw [equal] at wallIs
        cases wall
        cases time
        simp only [WallTime.mk.injEq] at *
        omega
    simp only [same]

theorem guessFrom_eq (turns : history.Turns first last turn before after) {time : WallTime} {days : Int}
    {found : Option Phase}
    (lower : first + 86400000000 ≤ time.micros) (upper : time.micros + 86400000000 ≤ last)
    (near : -1 ≤ days ∧ days ≤ 1)
    (guessed : history.guessFrom time days = some found) :
    (∃ tried held : Phase,
      tried = (if (time.micros : Int) + days * 86400000000 < turn then before else after) ∧
      held = (if (time.micros : Int) - tried.offset * 1000000 < turn then before else after) ∧
      found = if held.offset = tried.offset then some held else none) ∨
    found = none ∧ ((time.micros : Int) + days * 86400000000 < 0 ∨
      calendarMicros ≤ (time.micros : Int) + days * 86400000000) := by
  unfold guessFrom at guessed
  cases probed : time.addDays days with
  | none =>
      rw [probed] at guessed
      refine .inr ⟨(Option.some.inj guessed).symm, ?_⟩
      simp only [WallTime.addDays, WallTime.addMicros, WallTime.ofMicros?] at probed
      split at probed
      · contradiction
      · omega
  | some probe =>
      rw [probed] at guessed
      have sum := WallTime.micros_of_addDays probed
      have result := guess_eq turns lower upper (by omega) (by omega) guessed
      rw [sum] at result
      exact .inl result

theorem guessFrom_sound (turns : history.Turns first last turn before after) {time : WallTime}
    {days : Int} {phase : Phase}
    (lower : first + 86400000000 ≤ time.micros) (upper : time.micros + 86400000000 ≤ last)
    (near : -1 ≤ days ∧ days ≤ 1) (guessed : history.guessFrom time days = some (some phase)) :
    phase = before ∧ (time.micros : Int) - before.offset * 1000000 < turn ∨
      phase = after ∧ turn ≤ (time.micros : Int) - after.offset * 1000000 := by
  rcases guessFrom_eq turns lower upper near guessed with
    ⟨tried, held, _, heldIs, found⟩ | ⟨missing, _⟩
  · split at found
    · next same =>
        rw [Option.some.inj found, heldIs]
        split
        · next earlier =>
            rw [if_pos earlier] at heldIs
            exact .inl ⟨rfl, by rw [← heldIs, same]; exact earlier⟩
        · next later =>
            rw [if_neg later] at heldIs
            exact .inr ⟨rfl, by rw [← heldIs, same]; omega⟩
    · contradiction
  · contradiction

/-- The phase before the turn is guessed where it shows the time and a probe meets it. -/
theorem guessFrom_before (turns : history.Turns first last turn before after) {time : WallTime}
    {days : Int} {found : Option Phase}
    (lower : first + 86400000000 ≤ time.micros) (upper : time.micros + 86400000000 ≤ last)
    (near : -1 ≤ days ∧ days ≤ 1) (guessed : history.guessFrom time days = some found)
    (inside : 0 ≤ time.micros + days * 86400000000 ∧
      time.micros + days * 86400000000 < calendarMicros)
    (met : time.micros + days * 86400000000 < turn ∨ before = after)
    (shown : (time.micros : Int) - before.offset * 1000000 < turn) : found = some before := by
  rcases guessFrom_eq turns lower upper near guessed with
    ⟨tried, held, triedIs, heldIs, foundIs⟩ | ⟨_, outside⟩
  · have triedBefore : tried = before := by
      rcases met with early | same
      · rw [triedIs, if_pos early]
      · rw [triedIs, same, ite_self]
    rw [triedBefore, if_pos shown] at heldIs
    rw [triedBefore] at foundIs
    rw [foundIs, heldIs, if_pos rfl]
  · omega

theorem guessFrom_after (turns : history.Turns first last turn before after) {time : WallTime}
    {days : Int} {found : Option Phase}
    (lower : first + 86400000000 ≤ time.micros) (upper : time.micros + 86400000000 ≤ last)
    (near : -1 ≤ days ∧ days ≤ 1) (guessed : history.guessFrom time days = some found)
    (inside : 0 ≤ time.micros + days * 86400000000 ∧
      time.micros + days * 86400000000 < calendarMicros)
    (met : turn ≤ time.micros + days * 86400000000 ∨ before = after)
    (shown : turn ≤ (time.micros : Int) - after.offset * 1000000) : found = some after := by
  rcases guessFrom_eq turns lower upper near guessed with
    ⟨tried, held, triedIs, heldIs, foundIs⟩ | ⟨_, outside⟩
  · have triedAfter : tried = after := by
      rcases met with late | same
      · rw [triedIs, if_neg (by omega)]
      · rw [triedIs, same, ite_self]
    rw [triedAfter, if_neg (by omega)] at heldIs
    rw [triedAfter] at foundIs
    rw [foundIs, heldIs, if_pos rfl]
  · omega

theorem ofGuesses_eq_once {early late : Option Phase} {phase : Phase}
    (earlyOnly : ∀ found, early = some found → found = phase)
    (lateOnly : ∀ found, late = some found → found = phase)
    (guessed : early = some phase ∨ late = some phase) :
    Reading.ofGuesses (early.toList ++ late.toList) = .once phase := by
  cases early with
  | none => rw [guessed.resolve_left nofun]; rfl
  | some found =>
      rw [earlyOnly found rfl]
      cases late with
      | none => rfl
      | some other =>
          rw [lateOnly other rfl]
          exact if_pos rfl

/-- A time is read as its two instants about the turn say. -/
theorem read_eq (turns : history.Turns first last turn before after) {time : WallTime}
    {reading : Reading}
    (lower : first + 86400000000 ≤ time.micros) (upper : time.micros + 86400000000 ≤ last)
    (read : history.read time = some reading) : reading = readingAt turn before after time := by
  have beforeNear := turns.beforeNear
  have afterNear := turns.afterNear
  have size : calendarMicros = 315537897600000000 := rfl
  have inCalendar := time.micros_lt
  have margins := turns.inside
  simp only [History.read, guesses, Option.pure_def, Option.bind_eq_bind, Option.map_eq_some_iff,
    Option.bind_eq_some_iff, Option.some.injEq] at read
  obtain ⟨_, ⟨early, fromBefore, late, fromAfter, rfl⟩, rfl⟩ := read
  have earlySound := fun phase (same : early = some phase) =>
    guessFrom_sound turns lower upper (by omega) (same ▸ fromBefore)
  have lateSound := fun phase (same : late = some phase) =>
    guessFrom_sound turns lower upper (by omega) (same ▸ fromAfter)
  have earlyBefore := guessFrom_before turns lower upper (by omega) fromBefore
  have earlyAfter := guessFrom_after turns lower upper (by omega) fromBefore
  have lateBefore := guessFrom_before turns lower upper (by omega) fromAfter
  have lateAfter := guessFrom_after turns lower upper (by omega) fromAfter
  unfold readingAt
  by_cases shownBefore : (time.micros : Int) - before.offset * 1000000 < turn
  · by_cases shownAfter : turn ≤ (time.micros : Int) - after.offset * 1000000
    · have differ : before ≠ after := by
        rintro rfl
        omega
      have differentOffsets : before.offset ≠ after.offset := by omega
      have far := margins.resolve_left differ
      rw [if_pos shownBefore, if_pos shownAfter]
      rw [earlyBefore (by omega) (by omega) shownBefore,
        lateAfter (by omega) (by omega) shownAfter]
      exact if_neg differentOffsets
    · rw [if_pos shownBefore, if_neg shownAfter]
      have earlyOnly : ∀ phase, early = some phase → phase = before := fun phase same =>
        (earlySound phase same).elim And.left fun other => absurd other.2 shownAfter
      have lateOnly : ∀ phase, late = some phase → phase = before := fun phase same =>
        (lateSound phase same).elim And.left fun other => absurd other.2 shownAfter
      have guessedOnce : early = some before ∨ late = some before := by
        by_cases start : 86400000000 ≤ time.micros
        · exact .inl (earlyBefore (by omega) (by omega) shownBefore)
        · have met := margins.symm.imp_left fun far => (by omega :
            (time.micros : Int) + 1 * 86400000000 < turn)
          exact .inr (lateBefore (by omega) met shownBefore)
      exact ofGuesses_eq_once earlyOnly lateOnly guessedOnce
  · by_cases shownAfter : turn ≤ (time.micros : Int) - after.offset * 1000000
    · rw [if_neg shownBefore, if_pos shownAfter]
      have earlyOnly : ∀ phase, early = some phase → phase = after := fun phase same =>
        (earlySound phase same).elim (fun other => absurd other.2 shownBefore) And.left
      have lateOnly : ∀ phase, late = some phase → phase = after := fun phase same =>
        (lateSound phase same).elim (fun other => absurd other.2 shownBefore) And.left
      have guessedOnce : early = some after ∨ late = some after := by
        by_cases finish : time.micros + 86400000000 < calendarMicros
        · exact .inr (lateAfter (by omega) (by omega) shownAfter)
        · have met := margins.symm.imp_left fun far => (by omega :
            turn ≤ (time.micros : Int) + -1 * 86400000000)
          exact .inl (earlyAfter (by omega) met shownAfter)
      exact ofGuesses_eq_once earlyOnly lateOnly guessedOnce
    · rw [if_neg shownBefore, if_neg shownAfter]
      have noEarly : early = none := Option.eq_none_iff_forall_ne_some.2 fun phase same =>
        (earlySound phase same).elim (fun other => shownBefore other.2)
          fun other => shownAfter other.2
      have noLate : late = none := Option.eq_none_iff_forall_ne_some.2 fun phase same =>
        (lateSound phase same).elim (fun other => shownBefore other.2)
          fun other => shownAfter other.2
      rw [noEarly, noLate]
      rfl

theorem showAt_isSome {instant : Int} {phase : Phase}
    (held : history.phaseAt (Instant.unixSeconds instant) = phase) :
    (history.showAt instant).isSome = true ↔
      (0 ≤ instant ∧ instant < calendarMicros) ∧
        0 ≤ instant + phase.offset * 1000000 ∧ instant + phase.offset * 1000000 < calendarMicros := by
  rw [← WallTime.ofMicros?_isSome, ← WallTime.ofMicros?_isSome, showAt, held]
  cases WallTime.ofMicros? instant <;>
    cases WallTime.ofMicros? (instant + phase.offset * 1000000) <;> simp

/-- Both instants that a guess may try lie in the calendar when a time is a day away from its ends. -/
theorem guessFrom_isSome (turns : history.Turns first last turn before after) {days : Int}
    (lower : first + 86400000000 ≤ time.micros) (upper : time.micros + 86400000000 ≤ last)
    (near : -1 ≤ days ∧ days ≤ 1) (early : 86400000000 ≤ time.micros)
    (late : time.micros + 86400000000 < calendarMicros) :
    (history.guessFrom time days).isSome = true := by
  have beforeNear := turns.beforeNear
  have afterNear := turns.afterNear
  have moved := turns.moved
  unfold guessFrom
  cases probed : time.addDays days with
  | none => rfl
  | some probe =>
      have sum := WallTime.micros_of_addDays probed
      have tried : history.phaseAt (Instant.unixSeconds (probe.instant 0)) = before ∨
          history.phaseAt (Instant.unixSeconds (probe.instant 0)) = after := by
        have same : probe.instant 0 = (probe.micros : Int) := by simp [WallTime.instant]
        rw [same, turns.phase _ (by omega) (by omega)]
        split
        · exact .inl rfl
        · exact .inr rfl
      have shown (phase : Phase) (isPhase : phase = before ∨ phase = after) :
          (history.showAt (time.instant (phase.offset * 1000000))).isSome = true := by
        change (history.showAt ((time.micros : Int) - phase.offset * 1000000)).isSome = true
        have bounds : -64800 ≤ phase.offset ∧ phase.offset ≤ 64800 := by
          rcases isPhase with rfl | rfl
          · exact beforeNear
          · exact afterNear
        have held := turns.phase ((time.micros : Int) - phase.offset * 1000000) (by omega) (by omega)
        rw [showAt_isSome held]
        rcases isPhase with rfl | rfl <;> split <;> omega
      obtain ⟨answer, isAnswer⟩ := Option.isSome_iff_exists.1 (shown _ tried)
      simp only [guess, isAnswer, bind, Option.bind, pure, Option.isSome_some]

theorem exists_read (turns : history.Turns first last turn before after)
    (lower : first + 86400000000 ≤ time.micros) (upper : time.micros + 86400000000 ≤ last)
    (early : 86400000000 ≤ time.micros) (late : time.micros + 86400000000 < calendarMicros) :
    ∃ reading, history.read time = some reading := by
  have ahead := @guessFrom_isSome _ _ _ _ _ _ _ turns (-1) lower upper (by omega) early late
  have behind := @guessFrom_isSome _ _ _ _ _ _ _ turns 1 lower upper (by omega) early late
  obtain ⟨earlier, isEarlier⟩ := Option.isSome_iff_exists.1 ahead
  obtain ⟨later, isLater⟩ := Option.isSome_iff_exists.1 behind
  refine ⟨Reading.ofGuesses (earlier.toList ++ later.toList), ?_⟩
  rw [History.read, guesses, isEarlier, isLater]
  rfl

/-- A time that cannot be read because an instant lies outside the calendar is shown once. -/
theorem read_or_once (turns : history.Turns first last turn before after)
    (lower : first + 86400000000 ≤ time.micros) (upper : time.micros + 86400000000 ≤ last) :
    history.read time = some (readingAt turn before after time) ∨
      history.read time = none ∧ ∃ phase, readingAt turn before after time = .once phase := by
  cases reads : history.read time with
  | some reading =>
      rw [read_eq turns lower upper reads]
      exact .inl rfl
  | none =>
      refine .inr ⟨rfl, ?_⟩
      have beforeNear := turns.beforeNear
      have afterNear := turns.afterNear
      have size : calendarMicros = 315537897600000000 := rfl
      have edge : time.micros < 86400000000 ∨ calendarMicros ≤ time.micros + 86400000000 := by
        by_cases inner : 86400000000 ≤ time.micros ∧ time.micros + 86400000000 < calendarMicros
        · obtain ⟨reading, found⟩ := exists_read turns lower upper inner.1 inner.2
          rw [found] at reads
          contradiction
        · omega
      unfold readingAt
      rcases turns.inside with rfl | margins
      · split
        · exact ⟨before, if_neg (by omega)⟩
        · exact ⟨before, if_pos (by omega)⟩
      · rcases edge with early | late
        · rw [if_pos (by omega), if_neg (by omega)]
          exact ⟨before, rfl⟩
        · rw [if_neg (by omega), if_pos (by omega)]
          exact ⟨after, rfl⟩

theorem read_eq_skipped (turns : history.Turns first last turn before after)
    (lower : first + 86400000000 ≤ time.micros) (upper : time.micros + 86400000000 ≤ last) :
    history.read time = some .skipped ↔
      turn ≤ (time.micros : Int) - before.offset * 1000000 ∧
        (time.micros : Int) - after.offset * 1000000 < turn := by
  rw [← readingAt_eq_skipped]
  rcases read_or_once turns lower upper with read | ⟨read, phase, once⟩
  · rw [read, Option.some.injEq]
  · rw [read, once]
    exact ⟨nofun, nofun⟩

theorem read_eq_twice (turns : history.Turns first last turn before after)
    (lower : first + 86400000000 ≤ time.micros) (upper : time.micros + 86400000000 ≤ last) :
    (∃ early late, history.read time = some (.twice early late)) ↔
      (time.micros : Int) - before.offset * 1000000 < turn ∧
        turn ≤ (time.micros : Int) - after.offset * 1000000 := by
  rw [← readingAt_eq_twice]
  rcases read_or_once turns lower upper with read | ⟨read, phase, once⟩
  · simp only [read, Option.some.injEq]
  · simp only [read, once]
    exact ⟨nofun, nofun⟩

/-- Strides back from a skipped time end in the phase before the turn. -/
theorem offset_of_phaseWithin (turns : history.Turns first last turn before after)
    (differ : before ≠ after) (strides : Nat) {phase : Phase}
    (floor : turn + before.offset * 1000000 ≤ time.micros + 21600000000)
    (ceiling : (time.micros : Int) - after.offset * 1000000 < turn)
    (found : history.phaseWithin false strides time = some phase) :
    phase.offset = before.offset := by
  have beforeNear := turns.beforeNear
  have afterNear := turns.afterNear
  induction strides generalizing time with
  | zero => simp [phaseWithin] at found
  | succ strides ih =>
      have notAfter : ¬turn ≤ (time.micros : Int) - after.offset * 1000000 := by omega
      cases read : history.read time with
      | none => simp [phaseWithin, read] at found
      | some reading =>
          have reads := read_eq (turns.widened differ) (by omega) (by omega) read
          by_cases shownBefore : (time.micros : Int) - before.offset * 1000000 < turn
          · rw [readingAt, if_pos shownBefore, if_neg notAfter] at reads
            simp only [phaseWithin, read, reads, Option.some.injEq] at found
            rw [found]
          · rw [readingAt, if_neg shownBefore, if_neg notAfter] at reads
            simp only [phaseWithin, read, reads, Option.bind_eq_some_iff] at found
            obtain ⟨back, moved, found⟩ := found
            have sum := WallTime.micros_of_addSeconds moved
            simp only [stride, Bool.false_eq_true, if_false] at sum
            exact ih (by omega) (by omega) found

theorem offset_of_reader (turns : history.Turns first last turn before after) {phase : Phase}
    (lower : first + 86400000000 ≤ time.micros) (upper : time.micros + 86400000000 ≤ last)
    (found : history.phaseFor .reader false time = some phase) :
    phase.offset = offsetAbout .reader turn before after time := by
  have opened : history.phaseFor .reader false time =
      history.phaseWithin false (14608235 + 1) time := rfl
  rw [opened] at found
  cases read : history.read time with
  | none => simp [phaseWithin, read] at found
  | some reading =>
      have reads := read_eq turns lower upper read
      unfold offsetAbout
      cases cause : readingAt turn before after time with
      | once shown =>
          simp only [phaseWithin, read, reads, cause, Option.some.injEq] at found
          rw [found]
      | twice shown other =>
          simp only [phaseWithin, read, reads, cause, Option.some.injEq] at found
          rw [← found]
          rfl
      | skipped =>
          have gap := readingAt_eq_skipped.mp cause
          have differ : before ≠ after := by
            rintro rfl
            omega
          exact offset_of_phaseWithin turns differ _ (by omega) gap.2 found

/-- The phases a day before and a day after a time tell in which it stands. -/
theorem offset_phaseStanding (turns : history.Turns first last turn before after) (later : Bool)
    (lower : first + 86400000000 ≤ time.micros) (upper : time.micros + 86400000000 ≤ last) :
    (history.phaseStanding later time).offset =
      if (time.micros : Int) - before.offset * 1000000 < turn then
        if turn ≤ (time.micros : Int) - after.offset * 1000000 then
          if later then after.offset else before.offset
        else before.offset
      else if turn ≤ (time.micros : Int) - after.offset * 1000000 then after.offset
      else if later then after.offset else before.offset := by
  have beforeNear := turns.beforeNear
  have afterNear := turns.afterNear
  have phases := turns.phase
  have atBefore := phases ((time.micros : Int) - before.offset * 1000000) (by omega) (by omega)
  have atAfter := phases ((time.micros : Int) - after.offset * 1000000) (by omega) (by omega)
  have early := phases ((time.micros : Int) - 86400000000) (by omega) (by omega)
  have late := phases ((time.micros : Int) - -86400000000) (by omega) (by omega)
  by_cases passed : (time.micros : Int) - 86400000000 < turn
  · rw [if_pos passed] at early
    by_cases coming : (time.micros : Int) - -86400000000 < turn
    · have shownBefore : (time.micros : Int) - before.offset * 1000000 < turn := by omega
      have notAfter : ¬turn ≤ (time.micros : Int) - after.offset * 1000000 := by omega
      rw [if_pos coming] at late
      rw [if_pos shownBefore] at atBefore
      simp only [phaseStanding, WallTime.instant, early, late, atBefore, if_pos shownBefore,
        if_neg notAfter, BEq.rfl, ite_self]
    · rw [if_neg coming] at late
      simp only [phaseStanding, WallTime.instant, early, late, atBefore, atAfter]
      split_ifs <;> simp_all <;> omega
  · have notBefore : ¬(time.micros : Int) - before.offset * 1000000 < turn := by omega
    have shownAfter : turn ≤ (time.micros : Int) - after.offset * 1000000 := by omega
    rw [if_neg passed] at early
    rw [if_neg (by omega)] at late
    rw [if_neg (by omega)] at atAfter
    simp only [phaseStanding, WallTime.instant, early, late, atAfter, if_neg notBefore,
      if_pos shownAfter, BEq.rfl, ite_self]

theorem offset_of_phaseFor (turns : history.Turns first last turn before after) {manner : Manner}
    {phase : Phase} (lower : first + 86400000000 ≤ time.micros)
    (upper : time.micros + 86400000000 ≤ last)
    (found : history.phaseFor manner false time = some phase) :
    phase.offset = offsetAbout manner turn before after time := by
  cases manner with
  | reader => exact offset_of_reader turns lower upper found
  | plain key mark =>
      have stands : history.phaseStanding false time = phase := Option.some.inj found
      rw [← stands, offset_phaseStanding turns false lower upper, offsetAbout_eq]
      simp only [Manner.chosen, Bool.false_eq_true, if_false]
      split_ifs <;> rfl

end History

end Recurrence.Zone
