import Recurrence.Proofs.ICalendar.LastDate

namespace Recurrence

/-! A rule that is stored as a property is read back.

The calendar that has stored a rule reads it as it was but for its last date (`ICalendar.firstRule_ofRule`).
This keeps its instant if its offset is one of whole seconds, unless the calendar's zone is neither asked about
times nor named: there the midnight of a day that is written may be read with another offset
(`ICalendar.Shifts`).
-/

theorem Zone.whole_of_isPlain {zone : Zone} {time : WallTime} {read : Moment}
    (plain : zone.isPlain = true) (localized : zone.localize time = some read) :
    read.offset % 1000000 = 0 := by
  cases zone with
  | steady | fixed => contradiction
  | varying history manner =>
      simp only [localize, localizeWith, Option.map_eq_some_iff] at localized
      obtain ⟨phase, _, rfl⟩ := localized
      exact Int.mul_emod_left phase.offset 1000000

namespace ICalendar

section

variable [Zone.Directory] {calendar : Calendar} {rule : Rule} {date : Moment} {second : WallTime}
  {property : RecurProperty}

/-- The two ways in which a date moves when its calendar stores it and reads it back. -/
inductive Shifts (calendar : Calendar) (date : Moment) : Prop
  | part (fraction : date.offset % 1000000 ≠ 0)
  | standing {midnight : WallTime} {read : Moment} (plain : calendar.zone.isPlain = true)
      (unnamed : calendar.zone.name? = none) (isDay : IsDay calendar date midnight)
      (localized : calendar.zone.localize midnight = some read) (differs : read.offset ≠ 0)

/-- Of a day that a calendar has written, it reads the midnight in UTC, unless its zone is neither asked about
times nor named. -/
theorem Holds.exists_localize (holds : Holds calendar property rule date second)
    (agrees : calendar.zone.AgreesWithKey) {midnight : WallTime} (isDay : IsDay calendar date midnight) :
    ∃ read, calendar.zone.localize midnight = some read ∧
      (read.offset = 0 ∨ calendar.zone.isPlain = true ∧ calendar.zone.name? = none) := by
  obtain ⟨own, isOwn, _⟩ := holds.exists_form
  obtain ⟨rfl, isMidnight⟩ := (isDay_iff holds.instant isOwn).mp isDay
  rw [(Bool.and_eq_true_iff.mp isMidnight).1] at isOwn
  exact RuleText.localize_of_isLocal (genuine_utc midnight) agrees isOwn

/-- A midnight that is read for a date with an offset of whole seconds is the date's instant only if it has no
offset. -/
theorem instant_eq_iff_of_isDay {midnight : WallTime} {read : Moment} (whole : date.wall.microsecond = 0)
    (isDay : IsDay calendar date midnight) (wall : read.wall = midnight)
    (inSeconds : read.offset % 1000000 = 0) :
    read.instant = date.instant ↔ date.offset % 1000000 = 0 ∧ read.offset = 0 := by
  have second := isDay.instant
  have ofDate : (date.wall.micros : Int) - date.offset = date.instant := rfl
  have opened : read.instant = date.instant ↔
      (read.wall.micros : Int) - read.offset = date.wall.micros - date.offset := Iff.rfl
  rw [opened, wall]
  simp only [WallTime.microsecond, microsPerSecond, Instant.whole] at whole second
  omega

/-- In its own calendar a stored date moves in no other way. -/
theorem Holds.not_moves_iff (holds : Holds calendar property rule date second)
    (agrees : calendar.zone.AgreesWithKey) :
    ¬Moves calendar calendar date ↔ ¬Shifts calendar date := by
  by_cases timed : ∀ midnight, ¬IsDay calendar date midnight
  · rw [not_moves_iff_of_timed timed]
    constructor
    · intro inSeconds shifts
      cases shifts with
      | part fraction => exact fraction inSeconds
      | standing _ _ isDay _ _ => exact timed _ isDay
    · exact fun stays => Decidable.byContradiction fun fraction => stays (.part fraction)
  · obtain ⟨midnight, isDay⟩ := not_forall_not.mp timed
    obtain ⟨read, localized, kept⟩ := holds.exists_localize agrees isDay
    have readSeconds : read.offset % 1000000 = 0 := by
      rcases kept with unmoved | ⟨plain, _⟩
      · rw [unmoved]
        rfl
      · exact Zone.whole_of_isPlain plain localized
    rw [not_moves_iff_of_isDay isDay localized,
      instant_eq_iff_of_isDay holds.whole isDay (Zone.wall_of_localize localized) readSeconds]
    constructor
    · intro both shifts
      cases shifts with
      | part fraction => exact fraction both.1
      | standing _ _ other otherRead differs =>
          obtain rfl := isDay.eq other
          obtain rfl := Option.some.inj (localized.symm.trans otherRead)
          exact differs both.2
    · intro stays
      refine ⟨Decidable.byContradiction fun fraction => stays (.part fraction), ?_⟩
      rcases kept with unmoved | ⟨plain, unnamed⟩
      · exact unmoved
      · exact Decidable.byContradiction fun differs =>
          stays (.standing plain unnamed isDay localized differs)

/-- What a calendar has stored it can read. -/
theorem exists_firstRule (valid : rule.Valid) (agrees : calendar.zone.AgreesWithKey)
    (stored : ofRule calendar rule = some property)
    (fits : (property.text.toList.length : Int) ≤ RuleGuard.defaultLimit) :
    ∃ converted ending, inUtc calendar rule = some converted ∧
      firstRule calendar [property.text] = .ok (some { converted with ending }) ∧
      (converted.ending.same ending = true ↔
        ∀ date ∈ converted.ending.date?, ¬RuleText.Moves calendar date) := by
  obtain ⟨converted, isConverted, isWritten⟩ := text_of_ofRule valid stored
  have converts := converted_of_inUtc valid isConverted
  obtain ⟨ending, reads, same⟩ :=
    RuleText.exists_read_of_write converts.valid converts.genuine agrees isWritten fits
  exact ⟨converted, ending, isConverted, firstRule_of_readText reads, same⟩

/-- A valid rule that is stored as a property is read back by its calendar as it was but for its end, and the
property holds all that was written for it.  The end is the same exactly unless the last date shifts. -/
theorem firstRule_ofRule {calendar : Calendar} {rule : Rule} {property : RecurProperty}
    (valid : rule.Valid) (agrees : calendar.zone.AgreesWithKey)
    (stored : ofRule calendar rule = some property)
    (fits : (property.text.toList.length : Int) ≤ RuleGuard.defaultLimit) :
    (∃ converted, inUtc calendar rule = some converted ∧
      RuleText.write calendar converted = some property.text) ∧
    ∃ ending, firstRule calendar [property.text] = .ok (some { rule with ending }) ∧
      (rule.ending.same ending = true ↔ ∀ date ∈ rule.ending.date?, ¬Shifts calendar date) := by
  refine ⟨text_of_ofRule valid stored, ?_⟩
  obtain ⟨converted, ending, isConverted, reads, same⟩ := exists_firstRule valid agrees stored fits
  cases ends : rule.ending with
  | afterDate date =>
      obtain ⟨second, holds⟩ := exists_holds valid ends stored fits
      obtain ⟨read, isRead, kept⟩ := holds.exists_read (inRange_of_firstRule reads)
      refine ⟨.afterDate read, isRead, ?_⟩
      have sameInstant : (Ending.afterDate date).same (.afterDate read) = true ↔
          read.instant = date.instant := beq_iff_eq.trans eq_comm
      rw [sameInstant, kept, holds.not_moves_iff agrees]
      constructor
      · intro stays other member
        rw [eq_of_mem_afterDate member]
        exact stays
      · exact fun stays => stays date rfl
  | _ =>
      rw [inUtc, ends] at isConverted
      cases isConverted
      refine ⟨ending, reads, ?_⟩
      rw [ends] at same
      refine iff_of_true (same.mpr ?_) ?_
      · intro date member
        exact absurd member (Option.not_mem_none date)
      · intro date member
        exact absurd member (Option.not_mem_none date)

end

open RuleText

/-- The first half past one of that night in New York, as UTC has it four hours later. -/
def halfPastFive : Moment :=
  ⟨⟨repeatedHour.wall.micros + 4 * 3600 * 1000000, by decide⟩, 0, .utc⟩

/-- The second before the year 2024, as UTC has it. -/
def lastSecond : Moment := ⟨⟨splitMidnight.wall.micros - 1000000, by decide⟩, 0, .utc⟩

end ICalendar

namespace ICalendar

attribute [local instance] Zone.table

open RuleText

theorem firstRule_ofRule_untilRepeatedHour :
    untilRepeatedHour.Valid ∧ repeatedHour.zone.AgreesWithKey ∧
      ofRule ⟨repeatedHour.zone, .monday⟩ untilRepeatedHour =
        some (.ofText "FREQ=WEEKLY;UNTIL=20241103T053000Z;BYDAY=2MO,SU,2MO") ∧
      (RecurProperty.ofText "FREQ=WEEKLY;UNTIL=20241103T053000Z;BYDAY=2MO,SU,2MO").text =
        "FREQ=WEEKLY;UNTIL=20241103T053000Z;BYDAY=2MO,SU,2MO" ∧
      ∃ ending, firstRule ⟨repeatedHour.zone, .monday⟩
          ["FREQ=WEEKLY;UNTIL=20241103T053000Z;BYDAY=2MO,SU,2MO"] =
            .ok (some { untilRepeatedHour with ending }) ∧
        untilRepeatedHour.ending.same ending = true := by
  have valid : untilRepeatedHour.Valid := by decide
  have agrees : repeatedHour.zone.AgreesWithKey := fun plain => Bool.noConfusion plain
  have isConverted : inUtc ⟨repeatedHour.zone, .monday⟩ untilRepeatedHour =
      some { untilRepeatedHour with ending := .afterDate halfPastFive } := by
    decide +kernel
  have isWritten : write ⟨repeatedHour.zone, .monday⟩
      { untilRepeatedHour with ending := .afterDate halfPastFive } =
        some "FREQ=WEEKLY;UNTIL=20241103T053000Z;BYDAY=2MO,SU,2MO" := by
    decide +kernel
  have stored := ofRule_eq isConverted isWritten
  have text := text_ofText_write (converted_of_inUtc valid isConverted).unmoved isWritten
  obtain ⟨_, ending, reads, same⟩ := firstRule_ofRule valid agrees stored (by rw [text]; decide)
  have stays : ∀ date ∈ untilRepeatedHour.ending.date?, ¬Shifts ⟨repeatedHour.zone, .monday⟩ date := by
    intro date member shifts
    rw [eq_of_mem_afterDate member] at shifts
    cases shifts with
    | part fraction => exact fraction (by decide)
    | standing plain => exact Bool.noConfusion plain
  rw [text] at reads
  exact ⟨valid, agrees, stored, text, ending, reads, same.mpr stays⟩

/-- A midnight that falls between two seconds of UTC is stored as the earlier of these. -/
theorem not_forall_firstRule_ofRule :
    ¬∀ (calendar : Calendar) (rule : Rule) (property : RecurProperty), rule.Valid →
      calendar.zone.AgreesWithKey → ofRule calendar rule = some property →
        (property.text.toList.length : Int) ≤ RuleGuard.defaultLimit →
          ∃ read, firstRule calendar [property.text] = .ok (some read) ∧ rule.same read = true := by
  intro always
  have valid : untilSplitMidnight.Valid := by decide
  have isConverted : inUtc {} untilSplitMidnight =
      some { untilSplitMidnight with ending := .afterDate lastSecond } := by
    decide +kernel
  have isWritten : write {} { untilSplitMidnight with ending := .afterDate lastSecond } =
      some "FREQ=DAILY;UNTIL=20231231T235959Z" := by
    decide +kernel
  have text := text_ofText_write (converted_of_inUtc valid isConverted).unmoved isWritten
  have agrees : (({} : Calendar).zone).AgreesWithKey := fun plain => Bool.noConfusion plain
  have isRead : readText {} RuleGuard.defaultLimit "FREQ=DAILY;UNTIL=20231231T235959Z" =
      .ok { untilSplitMidnight with ending := .afterDate lastSecond } := by
    simp only [readText, readPartial_eq]
    decide +kernel
  obtain ⟨read, reads, same⟩ := always {} untilSplitMidnight _ valid agrees
    (ofRule_eq isConverted isWritten) (by rw [text]; decide)
  rw [text, firstRule_of_readText isRead] at reads
  obtain rfl := Option.some.inj (Except.ok.inj reads)
  exact absurd same (by decide +kernel)

end ICalendar

end Recurrence
