import Recurrence.Moment

namespace Recurrence.Zone

/-! What a stretch of less than 90 hours sees of a zone's history.

The changes of a history are at least 90 hours apart, so a shorter stretch holds at most one of them:
the `turn`, before which one phase is in force and from which on another one is.  `History.Turns`
states this with the bounds on the two phases; every fact on wall-clock times near each other is
derived from it.  A change that is seen is the only one for 90 hours in both directions
(`History.Turns.widened`).
-/

def phaseIn (initial : Phase) (shifts : List Shift) (second : Int) : Phase :=
  match shifts.find? fun shift => shift.second ≤ second with
  | some shift => shift.phase
  | none => initial

theorem phaseIn_of_le {initial : Phase} {latest : Shift} {earlier : List Shift} {second : Int}
    (reached : latest.second ≤ second) :
    phaseIn initial (latest :: earlier) second = latest.phase := by
  simp [phaseIn, reached]

theorem phaseIn_of_lt {initial : Phase} {latest : Shift} {earlier : List Shift} {second : Int}
    (ahead : second < latest.second) :
    phaseIn initial (latest :: earlier) second = phaseIn initial earlier second := by
  have missed : decide (latest.second ≤ second) = false := decide_eq_false (by omega)
  simp [phaseIn, missed]

theorem phaseIn_eq_phaseAfter {initial : Phase} {shifts : List Shift} {second : Int}
    (reached : lastChange shifts ≤ second) :
    phaseIn initial shifts second = phaseAfter initial shifts := by
  cases shifts with
  | nil => rfl
  | cons latest earlier => exact phaseIn_of_le reached

theorem Phase.near_of_isNear {phase : Phase} (near : phase.isNear = true) :
    -64800 ≤ phase.offset ∧ phase.offset ≤ 64800 :=
  of_decide_eq_true near

theorem isRegular_cons {initial : Phase} {latest : Shift} {earlier : List Shift}
    (regular : isRegular initial (latest :: earlier) = true) :
    (-64800 ≤ latest.phase.offset ∧ latest.phase.offset ≤ 64800) ∧
      lastChange earlier + spacing ≤ latest.second ∧ latest.second + spacing ≤ calendarEnd ∧
      (phaseAfter initial earlier).offset - latest.phase.offset ≤ 86400 ∧
      latest.phase.offset - (phaseAfter initial earlier).offset ≤ 86400 ∧
      isRegular initial earlier = true := by
  simp only [isRegular, Bool.and_eq_true, decide_eq_true_eq] at regular
  obtain ⟨⟨⟨⟨⟨near, apart⟩, inside⟩, back⟩, ahead⟩, rest⟩ := regular
  exact ⟨Phase.near_of_isNear near, apart, inside, back, ahead, rest⟩

theorem near_phaseAfter {initial : Phase} {shifts : List Shift}
    (regular : isRegular initial shifts = true) :
    -64800 ≤ (phaseAfter initial shifts).offset ∧ (phaseAfter initial shifts).offset ≤ 64800 := by
  cases shifts with
  | nil => exact Phase.near_of_isNear regular
  | cons latest earlier => exact (isRegular_cons regular).1

theorem le_lastChange {initial : Phase} {shifts : List Shift}
    (regular : isRegular initial shifts = true) : -unixEpoch ≤ lastChange shifts := by
  induction shifts with
  | nil => exact Int.le_refl _
  | cons latest earlier ih =>
      obtain ⟨_, apart, _, _, _, rest⟩ := isRegular_cons regular
      have bound := ih rest
      simp only [lastChange, spacing] at *
      omega

/-- What a list of changes gives about the one of them that a stretch of seconds sees: the phases on both
sides, up to 90 hours away if the change moves anything. -/
structure TurnsIn (initial : Phase) (shifts : List Shift) (first last turn : Int)
    (before after : Phase) : Prop where
  phase : ∀ second, first ≤ second → second ≤ last →
    phaseIn initial shifts second = if second < turn then before else after
  beforeNear : -64800 ≤ before.offset ∧ before.offset ≤ 64800
  afterNear : -64800 ≤ after.offset ∧ after.offset ≤ 64800
  moved : before.offset - after.offset ≤ 86400 ∧ after.offset - before.offset ≤ 86400
  inside : before = after ∨
    -unixEpoch + spacing ≤ turn ∧ turn ≤ lastChange shifts ∧ turn + spacing ≤ calendarEnd
  wide : before = after ∨ ∀ second, turn - spacing ≤ second → second < turn + spacing →
    phaseIn initial shifts second = if second < turn then before else after

theorem turnsIn_of_same {initial : Phase} {shifts : List Shift} {first last : Int} {phase : Phase}
    (near : -64800 ≤ phase.offset ∧ phase.offset ≤ 64800)
    (same : ∀ second, first ≤ second → second ≤ last → phaseIn initial shifts second = phase) :
    TurnsIn initial shifts first last first phase phase where
  phase second lower upper := by rw [same second lower upper, ite_self]
  beforeNear := near
  afterNear := near
  moved := by omega
  inside := .inl rfl
  wide := .inl rfl

/-- A stretch of seconds that is shorter than 90 hours sees at most one change of a regular list. -/
theorem exists_turnsIn {initial : Phase} {shifts : List Shift} {first last : Int}
    (regular : isRegular initial shifts = true) (short : last < first + spacing) :
    ∃ turn before after, TurnsIn initial shifts first last turn before after := by
  induction shifts with
  | nil =>
      exact ⟨first, initial, initial,
        turnsIn_of_same (Phase.near_of_isNear regular) fun _ _ _ => rfl⟩
  | cons latest earlier ih =>
      obtain ⟨near, apart, inside, back, ahead, rest⟩ := isRegular_cons regular
      by_cases past : latest.second ≤ first
      · exact ⟨first, latest.phase, latest.phase,
          turnsIn_of_same near fun second lower _ => phaseIn_of_le (by omega)⟩
      · by_cases future : last < latest.second
        · obtain ⟨turn, before, after, turns⟩ := ih rest
          refine ⟨turn, before, after, fun second lower upper => ?_, turns.beforeNear,
            turns.afterNear, turns.moved, turns.inside.imp_right fun margins => ?_, ?_⟩
          · rw [phaseIn_of_lt (by omega)]
            exact turns.phase second lower upper
          · have reached : turn ≤ latest.second := by
              simp only [spacing] at *
              omega
            exact ⟨margins.1, reached, margins.2.2⟩
          · rcases turns.inside with same | margins
            · exact .inl same
            · refine turns.wide.imp_right fun wide second lower upper => ?_
              rw [phaseIn_of_lt (by omega)]
              exact wide second lower upper
        · -- The latest change lies inside the stretch, and so the one before it does not.
          have start := le_lastChange rest
          have phases : ∀ second, latest.second - spacing ≤ second →
              phaseIn initial (latest :: earlier) second =
                if second < latest.second then phaseAfter initial earlier else latest.phase := by
            intro second lower
            by_cases turned : second < latest.second
            · rw [phaseIn_of_lt turned, phaseIn_eq_phaseAfter (by omega), if_pos turned]
            · rw [phaseIn_of_le (by omega), if_neg turned]
          exact ⟨latest.second, phaseAfter initial earlier, latest.phase,
            fun second lower _ => phases second (by omega), near_phaseAfter rest, near, ⟨back, ahead⟩,
            .inr ⟨by omega, Int.le_refl _, inside⟩, .inr fun second lower _ => phases second lower⟩

namespace History

/-- What the stretch between two instants sees of a history: the phase `before` up to an instant and
the phase `after` from then on.  Nothing changes in the first and in the last 90 hours of the calendar,
nor for 90 hours before and after a change. -/
structure Turns (history : History) (first last turn : Int) (before after : Phase) : Prop where
  phase : ∀ instant : Int, first ≤ instant → instant ≤ last →
    history.phaseAt (Instant.unixSeconds instant) = if instant < turn then before else after
  beforeNear : -64800 ≤ before.offset ∧ before.offset ≤ 64800
  afterNear : -64800 ≤ after.offset ∧ after.offset ≤ 64800
  moved : before.offset - after.offset ≤ 86400 ∧ after.offset - before.offset ≤ 86400
  inside : before = after ∨ 324000000000 ≤ turn ∧ turn + 324000000000 ≤ calendarMicros
  wide : before = after ∨ ∀ instant : Int, turn - 324000000000 ≤ instant →
    instant < turn + 324000000000 →
      history.phaseAt (Instant.unixSeconds instant) = if instant < turn then before else after

theorem exists_turns (history : History) (first last : Int)
    (short : last + 1000000 < first + 324000000000) :
    ∃ turn before after, history.Turns first last turn before after := by
  have seconds : Instant.unixSeconds last < Instant.unixSeconds first + spacing := by
    simp only [Instant.unixSeconds, spacing]
    omega
  obtain ⟨turn, before, after, turns⟩ := exists_turnsIn history.regular seconds
  have sameSide (instant : Int) :
      Instant.unixSeconds instant < turn ↔ instant < (turn + unixEpoch) * 1000000 := by
    simp only [Instant.unixSeconds]
    omega
  refine ⟨(turn + unixEpoch) * 1000000, before, after, fun instant lower upper => ?_,
    turns.beforeNear, turns.afterNear, turns.moved, turns.inside.imp_right fun margins => ?_,
    turns.wide.imp_right fun wide instant lower upper => ?_⟩
  · have read : history.phaseAt (Instant.unixSeconds instant) =
        if Instant.unixSeconds instant < turn then before else after :=
      turns.phase _ (by simp only [Instant.unixSeconds]; omega)
        (by simp only [Instant.unixSeconds]; omega)
    simp only [read, sameSide]
  · simp only [spacing, calendarEnd, dayCount, calendarMicros] at *
    omega
  · have read : history.phaseAt (Instant.unixSeconds instant) =
        if Instant.unixSeconds instant < turn then before else after :=
      wide _ (by simp only [Instant.unixSeconds, spacing]; omega)
        (by simp only [Instant.unixSeconds, spacing]; omega)
    simp only [read, sameSide]

/-- A change that moves the clocks is the only one for 90 hours in both directions. -/
theorem Turns.widened {history : History} {first last turn : Int} {before after : Phase}
    (turns : history.Turns first last turn before after) (differ : before ≠ after) :
    history.Turns (turn - 324000000000) (turn + 324000000000 - 1) turn before after where
  phase instant lower upper := turns.wide.resolve_left differ instant lower (by omega)
  beforeNear := turns.beforeNear
  afterNear := turns.afterNear
  moved := turns.moved
  inside := turns.inside
  wide := turns.wide

end History

end Recurrence.Zone
