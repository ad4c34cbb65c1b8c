import Recurrence.Proofs.Rule.RoundTrip
import Recurrence.Proofs.Rule.Written
import Recurrence.Proofs.Zone.Ahead
import Recurrence.Rule.Stored

namespace Recurrence

/-! Stored rules load back.

A rule is stored as a text of any length and loaded by the default reader, which admits a bounded
number of characters.  A rule whose last date can be expressed in UTC, in whole seconds, is always stored, and
its text loads back as an equal rule unless it is too long: `Rule.stored?_storedText?`.
-/

namespace Zone

theorem clock_of_offsetAt {zone : Zone} {moment : Moment}
    (same : zone.offsetAt moment.instant = moment.offset) :
    zone.clock moment.instant = moment.wall.micros := by
  have opened : (moment.wall.micros : Int) - moment.offset = moment.instant := rfl
  rw [clock, same]
  omega

theorem exists_offsetAt_of_hasReader {zone : Zone} (reader : zone.hasReader = true) (instant : Int) :
    ∃ seconds : Int, zone.offsetAt instant = seconds * 1000000 := by
  cases zone with
  | steady | varying => exact ⟨_, rfl⟩
  | fixed => contradiction

end Zone

section

variable [Zone.Directory]

/-- Dates as they come about: a wall-clock time is read in a zone that is found by its name, with either choice
for a repeated or skipped time, or stands in a zone without a reader.  Where the key of such a zone names
another one that neither skips nor repeats the time, the date has the offset of this one. -/
structure Moment.Faithful (date : Moment) : Prop where
  read : ∃ choice, date.zone.localizeWith date.wall choice = some date
  known : date.zone.Listed ∨ date.zone.hasReader = false
  keyed : date.zone.hasReader = false → ∀ key named, date.zone.name? = some key →
    Zone.resolve? key = some named → named.skips date.wall = false →
    named.repeats date.wall = false → named.offsetAt date.instant = date.offset

namespace Moment.Faithful

variable {date : Moment}

/-- Dropping the fraction of the second leaves a date such as it may come about. -/
theorem truncate (faithful : date.Faithful) : date.truncate.Faithful where
  read := Zone.exists_read_truncate faithful.read
  known := faithful.known
  keyed := by
    intro readless key named isKey resolved notSkipped once
    change named.skips date.wall.truncate = false at notSkipped
    change named.repeats date.wall.truncate = false at once
    rw [Zone.skips_truncate] at notSkipped
    rw [Zone.repeats_truncate] at once
    have keyed := faithful.keyed readless key named isKey resolved notSkipped once
    obtain ⟨seconds, isWhole⟩ :=
      Zone.exists_offsetAt_of_hasReader (Zone.Listed.hasReader ⟨key, resolved⟩)
      date.instant
    rw [keyed] at isWhole
    change named.offsetAt (date.wall.truncate.instant date.offset) = date.offset
    rw [isWhole, WallTime.instant_truncate, Zone.offsetAt_whole, ← isWhole]
    exact keyed

theorem placed (faithful : date.Faithful) : date.Placed := by
  refine ⟨faithful.read, ?_⟩
  rcases faithful.known with listed | readless
  · exact .inr fun name isName => RuleText.ascii_of_resolve? (listed.resolve? isName)
  · exact .inl readless

theorem genuine (faithful : date.Faithful) : date.Genuine := by
  refine ⟨faithful.read, faithful.known, fun readless key named shown isKey resolved once localized => ?_⟩
  have reader : named.hasReader = true := Zone.Listed.hasReader ⟨key, resolved⟩
  have offsetIs : named.offsetAt date.instant = date.offset := by
    have keyed := faithful.keyed readless key named isKey resolved
    cases named with
    | steady | fixed => exact keyed rfl rfl
    | varying history manner =>
        cases manner with
        | plain own mark => contradiction
        | reader =>
            obtain ⟨phase, reads⟩ := Zone.read_of_judge once
            exact keyed (by simp [Zone.skips, reads]) (by simp [Zone.repeats, reads])
  obtain ⟨read, again, atClock⟩ :=
    Zone.exists_localize_of_showsOnce (Zone.isPlain_of_hasReader reader) once
  obtain rfl := Option.some.inj (again.symm.trans localized)
  rw [atClock date.instant (Zone.clock_of_offsetAt offsetIs), offsetIs]

/-- It can be told how often such a date is shown, if its instant lies in the calendar. -/
theorem tells (faithful : date.Faithful) (inside : 0 ≤ date.instant ∧ date.instant < calendarMicros) :
    date.zone.Tells date.wall := by
  cases reader : date.zone.hasReader with
  | true =>
      obtain ⟨choice, read⟩ := faithful.read
      exact Zone.tells_of_localizeWith reader read
  | false =>
      intro history judges
      obtain ⟨key, manner, isKey, resolved⟩ := Zone.resolve?_of_judge? reader judges
      by_contra outside
      have unread : history.read date.wall = none := by
        rw [← Option.not_isSome_iff_eq_none, Zone.History.read_isSome history .reader]
        exact outside
      have offsetIs := faithful.keyed reader key _ isKey resolved
        (by simp [Zone.skips, unread]) (by simp [Zone.repeats, unread])
      exact outside (Zone.History.inCalendar_of_clock inside (Zone.clock_of_offsetAt offsetIs))

end Moment.Faithful

end

namespace RuleText

variable [Zone.Directory]

/-- In UTC a date is written whenever it can be expressed there. -/
theorem not_overflows_utc {date : Moment} (faithful : date.Faithful)
    (convertible : (Zone.utc.at date.instant).isSome = true) : ¬Overflows {} date := by
  have covers : Zone.utc.Covers date.instant := Zone.at_isSome.mp convertible
  intro overflows
  cases overflows with
  | shown _ hidden => exact hidden covers
  | compared _ untold => exact untold nofun
  | named _ _ untold => exact untold (faithful.tells covers.1)
  | moved _ _ _ outside => exact outside covers

theorem read_of_long {calendar : Calendar} {text : String}
    (long : RuleGuard.defaultLimit < text.toList.length) :
    read calendar text =
      .error (.rule ⟨RuleGuard.excerpt text.toList, .tooLong RuleGuard.defaultLimit, none, none, none⟩) := by
  have filled : text.isEmpty = false := by
    refine String.isEmpty_eq_false_iff.mpr fun empty => ?_
    rw [empty] at long
    contradiction
  have writable : Digits.isWritable RuleGuard.defaultLimit = true := by decide +kernel
  rw [read, readText, RuleGuard.checkText, filled, if_neg Bool.false_ne_true, if_pos long, if_pos writable]
  rfl

end RuleText

namespace Rule

variable {name text : String} {rule read : Rule}

/-- What is reported of a stored text of more characters than the default reader admits. -/
def lengthIssue (name text : String) : Issue where
  place := [.field name]
  cause := .refused (RuleError.report
    ⟨RuleGuard.excerpt text.toList, .tooLong RuleGuard.defaultLimit, none, none, none⟩).text

section

variable [Zone.Directory]

theorem stored?_of_read (reads : RuleText.read {} text = .ok read) :
    stored? name [(name, .text text)] = some (.good read) := by
  rw [stored?, List.lookup_cons_self]
  simp only [ofStored?, reads, Option.map_some, Checked.within]

theorem stored?_of_long (long : RuleGuard.defaultLimit < text.toList.length) :
    stored? name [(name, .text text)] = some (.bad [lengthIssue name text]) := by
  rw [stored?, List.lookup_cons_self]
  simp only [ofStored?, RuleText.read_of_long long, Option.map_some, Checked.within, Checked.fail,
    List.map_cons, List.map_nil]
  rfl

/-- A valid rule whose last date can be expressed in UTC, at an offset of whole seconds, is stored.  Its text
loads back as an equal rule if it is no longer than the default reader admits, and is refused for its length
if it is. -/
theorem stored?_storedText? (valid : rule.Valid)
    (made : ∀ date ∈ rule.ending.date?, ∃ made : Moment, made.Faithful ∧ date = made.truncate)
    (convertible : ∀ date ∈ rule.ending.date?, (Zone.utc.at date.instant).isSome = true)
    (inSeconds : ∀ date ∈ rule.ending.date?, date.offset % 1000000 = 0) :
    ∃ text, rule.storedText? = some text ∧
      ((text.toList.length : Int) ≤ RuleGuard.defaultLimit →
        ∃ read, stored? name [(name, .text text)] = some (.good read) ∧ rule.same read = true) ∧
      (RuleGuard.defaultLimit < text.toList.length →
        stored? name [(name, .text text)] = some (.bad [lengthIssue name text])) := by
  have faithful : ∀ date ∈ rule.ending.date?, date.Faithful := by
    intro date member
    obtain ⟨made, faithful, rfl⟩ := made date member
    exact faithful.truncate
  have isWritten : (RuleText.write {} rule).isSome = true := by
    rw [RuleText.write_isSome_iff fun date member => (faithful date member).placed]
    exact fun date member =>
      RuleText.not_overflows_utc (faithful date member) (convertible date member)
  obtain ⟨text, isText⟩ := Option.isSome_iff_exists.mp isWritten
  refine ⟨text, isText, fun fits => ?_, stored?_of_long⟩
  have stays : ∀ date ∈ rule.ending.date?, ¬RuleText.Moves {} date := by
    intro date member moves
    cases moves with
    | part _ fraction => exact fraction (inSeconds date member)
    | standing plain => cases plain
  have agrees : Zone.utc.AgreesWithKey := fun readless => Bool.noConfusion readless
  obtain ⟨ending, reads, same⟩ := RuleText.exists_read_of_write valid
    (fun date member => (faithful date member).genuine) agrees isText fits
  exact ⟨_, stored?_of_read reads, same_of_ending (same.mpr stays)⟩

end

/-- Six hundred times the second 0. -/
def manySeconds : Rule where
  frequency := .daily
  seconds := List.replicate 600 0

end Rule

namespace Rule

attribute [local instance] Zone.table

theorem faithful_repeatedHour : RuleText.repeatedHour.Faithful where
  read := ⟨true, by decide +kernel⟩
  known := .inl RuleText.listed_newYork
  keyed := nofun

theorem stored?_untilRepeatedHour :
    RuleText.untilRepeatedHour.storedText? =
        some "FREQ=WEEKLY;UNTIL=20241103T053000Z;BYDAY=2MO,SU,2MO" ∧
      ∃ read, stored? "rrule" [("rrule", .text "FREQ=WEEKLY;UNTIL=20241103T053000Z;BYDAY=2MO,SU,2MO")] =
          some (.good read) ∧
        RuleText.untilRepeatedHour.same read = true := by
  have made : ∀ date ∈ RuleText.untilRepeatedHour.ending.date?,
      ∃ made : Moment, made.Faithful ∧ date = made.truncate := by
    intro date member
    cases member
    exact ⟨RuleText.repeatedHour, faithful_repeatedHour, by decide +kernel⟩
  have convertible : ∀ date ∈ RuleText.untilRepeatedHour.ending.date?,
      (Zone.utc.at date.instant).isSome = true := by
    intro date member
    cases member
    decide
  have inSeconds : ∀ date ∈ RuleText.untilRepeatedHour.ending.date?, date.offset % 1000000 = 0 := by
    intro date member
    cases member
    decide
  have isText : RuleText.untilRepeatedHour.storedText? =
      some "FREQ=WEEKLY;UNTIL=20241103T053000Z;BYDAY=2MO,SU,2MO" := by
    decide +kernel
  obtain ⟨text, stored, loads, _⟩ :=
    @stored?_storedText? "rrule" RuleText.untilRepeatedHour _ (by decide) made convertible inSeconds
  obtain rfl := Option.some.inj (isText.symm.trans stored)
  exact ⟨isText, loads (by decide)⟩

theorem storedText?_manySeconds :
    ∃ text, manySeconds.storedText? = some text ∧ RuleGuard.defaultLimit < text.toList.length := by
  refine ⟨_, rfl, ?_⟩
  rw [String.toList_ofList]
  decide +kernel

/-- Not every stored rule loads back: there is no bound on what is stored. -/
theorem not_forall_stored_loads :
    ¬∀ (rule : Rule) (name : String), rule.Valid →
      (∀ date ∈ rule.ending.date?, ∃ made : Moment, made.Faithful ∧ date = made.truncate) →
      (∀ date ∈ rule.ending.date?, (Zone.utc.at date.instant).isSome = true) →
        ∃ text read, rule.storedText? = some text ∧
          stored? name [(name, .text text)] = some (.good read) ∧ rule.same read = true := by
  intro loads
  obtain ⟨text, read, stored, loaded, _⟩ := loads manySeconds "rrule" (by decide +kernel) nofun nofun
  obtain ⟨same, isSame, long⟩ := storedText?_manySeconds
  obtain rfl := Option.some.inj (isSame.symm.trans stored)
  rw [stored?_of_long long] at loaded
  cases Option.some.inj loaded

end Rule

end Recurrence
