import Recurrence.Proofs.ICalendar.LastDate

namespace Recurrence.ICalendar

/-! A rule that one calendar stores and another reads.

The last date of a stored rule is in UTC, and a time in UTC means the same instant everywhere.  But a
midnight in UTC is written as a day alone when it is one of the writing calendar as well, and the
reading calendar takes the day for a midnight of its own.
-/

section

variable [Zone.Directory]

/-- A calendar that does not break off reads what another one has stored as the same rule but for its
last date.  This is the instant that was stored exactly unless the date moves. -/
theorem same_ending_iff_not_moves {writer reader : Calendar} {rule : Rule} {date : Moment}
    {property : RecurProperty} (valid : rule.Valid) (ends : rule.ending = .afterDate date)
    (stored : ofRule writer rule = some property)
    (fits : (property.text.toList.length : Int) ≤ RuleGuard.defaultLimit)
    (inRange : firstRule reader [property.text] ≠ .error .outOfRange) :
    ∃ read, firstRule reader [property.text] = .ok (some read) ∧
      read = { rule with ending := read.ending } ∧
      (rule.ending.same read.ending = true ↔ ¬Moves writer reader date) := by
  obtain ⟨second, holds⟩ := exists_holds valid ends stored fits
  obtain ⟨read, isRead, kept⟩ := holds.exists_read inRange
  refine ⟨_, isRead, rfl, ?_⟩
  have sameInstant : (Ending.afterDate date).same (.afterDate read) = true ↔
      read.instant = date.instant := beq_iff_eq.trans eq_comm
  rw [ends, sameInstant, kept]

end

/-- The first moment of a day in UTC. -/
def saturday : Moment := ⟨⟨63872755200000000, by decide⟩, 0, .utc⟩

def untilSaturday : Rule where
  frequency := .daily
  ending := .afterDate saturday

def berlinCalendar : Calendar := ⟨.varying Zone.Berlin.history .reader, .monday⟩

end Recurrence.ICalendar

namespace Recurrence.ICalendar

attribute [local instance] Zone.table

open RuleText

/-- New York writes it as a time in UTC, which Berlin reads as such. -/
theorem same_ending_untilSaturday :
    untilSaturday.Valid ∧
      ofRule newYorkCalendar untilSaturday = some (.ofText "FREQ=DAILY;UNTIL=20250118T000000Z") ∧
      (RecurProperty.ofText "FREQ=DAILY;UNTIL=20250118T000000Z").text =
        "FREQ=DAILY;UNTIL=20250118T000000Z" ∧
      ∃ read, firstRule berlinCalendar ["FREQ=DAILY;UNTIL=20250118T000000Z"] = .ok (some read) ∧
        untilSaturday.ending.same read.ending = true := by
  have valid : untilSaturday.Valid := by decide
  have isConverted : inUtc newYorkCalendar untilSaturday = some untilSaturday := by decide +kernel
  have isWritten : write newYorkCalendar untilSaturday = some "FREQ=DAILY;UNTIL=20250118T000000Z" := by
    decide +kernel
  have stored := ofRule_eq isConverted isWritten
  have text := text_ofText_write (converted_of_inUtc valid isConverted).unmoved isWritten
  have reads : readText berlinCalendar RuleGuard.defaultLimit "FREQ=DAILY;UNTIL=20250118T000000Z" =
      .ok untilSaturday := by
    simp only [readText, readPartial_eq]
    decide +kernel
  have inRange := inRange_of_firstRule (firstRule_of_readText reads)
  obtain ⟨read, isRead, _, same⟩ :=
    same_ending_iff_not_moves valid rfl stored (by rw [text]; decide) (by rw [text]; exact inRange)
  have stays : ¬Moves newYorkCalendar berlinCalendar saturday := by
    intro moves
    cases moves with
    | part fraction => exact fraction (by decide)
    | day isDay => exact absurd isDay.offset (by decide +kernel)
  rw [text] at isRead
  exact ⟨valid, stored, text, read, isRead, same.mpr stays⟩

/-- What UTC writes as a day is another instant in New York. -/
theorem not_forall_same_ending :
    ¬∀ (writer reader : Calendar) (rule : Rule) (date : Moment) (property : RecurProperty),
      rule.Valid → rule.ending = .afterDate date → ofRule writer rule = some property →
        (property.text.toList.length : Int) ≤ RuleGuard.defaultLimit →
          firstRule reader [property.text] ≠ .error .outOfRange →
            ∃ read, firstRule reader [property.text] = .ok (some read) ∧
              rule.ending.same read.ending = true := by
  intro always
  have valid : untilSaturday.Valid := by decide
  have isConverted : inUtc {} untilSaturday = some untilSaturday := by decide +kernel
  have isWritten : write {} untilSaturday = some "FREQ=DAILY;UNTIL=20250118" := by decide +kernel
  have text := text_ofText_write (converted_of_inUtc valid isConverted).unmoved isWritten
  have reads : readText newYorkCalendar RuleGuard.defaultLimit "FREQ=DAILY;UNTIL=20250118" =
      .ok { untilSaturday with
        ending := .afterDate ⟨saturday.wall, -18000000000, newYorkCalendar.zone⟩ } := by
    simp only [readText, readPartial_eq]
    decide +kernel
  have isFirst := firstRule_of_readText reads
  have inRange := inRange_of_firstRule isFirst
  obtain ⟨read, isRead, same⟩ := always {} newYorkCalendar untilSaturday saturday _ valid rfl
    (ofRule_eq isConverted isWritten) (by rw [text]; decide) (by rw [text]; exact inRange)
  rw [text, isFirst] at isRead
  obtain rfl := Option.some.inj (Except.ok.inj isRead)
  exact absurd same (by decide +kernel)

end Recurrence.ICalendar
