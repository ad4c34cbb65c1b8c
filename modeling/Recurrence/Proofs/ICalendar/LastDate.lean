import Recurrence.Proofs.ICalendar.Property
import Recurrence.Proofs.Rule.Overrun

namespace Recurrence.ICalendar

/-! What is read of a last date that has been stored.

A stored rule has its last date in the whole second of UTC in which its instant lies (`inUtc_eq_some`).  It is
written as a time in UTC, which means the same everywhere, but for the first second of a day that begins in
the writing calendar as in UTC: that is written as the day alone, which a reading calendar takes for a midnight
of its own.  `Moves` says when the instant is not kept, and `Holds.exists_read` that there is no other way.
-/

theorem eq_of_mem_afterDate {date other : Moment} (member : other ∈ (Ending.afterDate date).date?) :
    other = date :=
  (Option.some.inj member).symm

theorem face_utc (zone : Zone) (time : WallTime) : zone.face ⟨time, 0, .utc⟩ = zone.clock time.micros := by
  have opened : (Moment.mk time 0 .utc).instant = (time.micros : Int) := Int.sub_zero _
  unfold Zone.face
  split
  · next kept =>
      obtain ⟨_, rfl⟩ := Zone.stands_of_keeps kept
      exact (Int.add_zero _).symm
  · rw [opened]

section

variable {calendar : Calendar} {rule converted : Rule}

/-- Converting a rule puts its last date at the whole second of UTC in which the instant lies. -/
theorem inUtc_eq_some {date : Moment} (ends : rule.ending = .afterDate date)
    (isConverted : inUtc calendar rule = some converted) :
    ∃ second : WallTime, (second.micros : Int) = Instant.whole date.instant ∧ second.microsecond = 0 ∧
      converted = { rule with ending := .afterDate ⟨second, 0, .utc⟩ } := by
  simp only [inUtc, ends, Option.pure_def, Option.bind_eq_bind, Option.bind_eq_some_iff] at isConverted
  obtain ⟨shown, shows, utc, isUtc, made⟩ := isConverted
  have instant := Zone.instant_of_at isUtc
  rw [Calendar.instant_of_shown shows] at instant
  obtain ⟨zone, offset, _⟩ := Zone.eq_of_at isUtc
  have unmoved : utc.offset = 0 := offset
  have opened : (utc.wall.micros : Int) - utc.offset = utc.instant := rfl
  refine ⟨utc.wall.truncate, ?_, utc.wall.microsecond_truncate, ?_⟩
  · rw [WallTime.micros_truncate, ← instant, ← opened, unmoved, Int.sub_zero]
  · rw [← Option.some.inj made, Moment.truncate, zone, unmoved]

variable [Zone.Directory]

theorem genuine_utc (time : WallTime) : (Moment.mk time 0 .utc).Genuine := by
  have listed : Zone.utc.Listed := ⟨"UTC", Zone.resolve?_utc⟩
  have read : Zone.utc.localizeWith time false = some ⟨time, 0, .utc⟩ := rfl
  exact Moment.genuine_of_localizeWith listed read

/-- A converted rule is a valid rule with a last date in UTC. -/
structure Converted (rule : Rule) : Prop where
  valid : rule.Valid
  genuine : ∀ date ∈ rule.ending.date?, date.Genuine
  unmoved : ∀ date ∈ rule.ending.date?, date.offset = 0

theorem converted_of_inUtc (valid : rule.Valid) (isConverted : inUtc calendar rule = some converted) :
    Converted converted := by
  cases ends : rule.ending with
  | afterDate date =>
      obtain ⟨second, _, whole, rfl⟩ := inUtc_eq_some ends isConverted
      refine ⟨⟨valid.1, whole, valid.2.2⟩, fun other member => ?_, fun other member => ?_⟩
      · rw [eq_of_mem_afterDate member]
        exact genuine_utc second
      · rw [eq_of_mem_afterDate member]
  | _ =>
      rw [inUtc, ends] at isConverted
      cases isConverted
      refine ⟨valid, ?_, ?_⟩ <;>
        · rw [ends]
          nofun

/-- A property holds the text of the converted rule. -/
theorem text_of_ofRule {property : RecurProperty} (valid : rule.Valid)
    (stored : ofRule calendar rule = some property) :
    ∃ converted, inUtc calendar rule = some converted ∧
      RuleText.write calendar converted = some property.text := by
  simp only [ofRule, Option.pure_def, Option.bind_eq_bind, Option.bind_eq_some_iff] at stored
  obtain ⟨converted, isConverted, text, isWritten, made⟩ := stored
  obtain rfl := Option.some.inj made
  have kept := RuleText.text_ofText_write (converted_of_inUtc valid isConverted).unmoved isWritten
  exact ⟨converted, isConverted, by rw [kept, isWritten]⟩

theorem ofRule_eq {text : String} (isConverted : inUtc calendar rule = some converted)
    (isWritten : RuleText.write calendar converted = some text) :
    ofRule calendar rule = some (.ofText text) := by
  rw [ofRule, isConverted]
  simp only [Option.pure_def, Option.bind_eq_bind, Option.bind_some, isWritten]

end

variable [Zone.Directory] {writer reader : Calendar} {rule : Rule} {date : Moment}
  {second midnight : WallTime}
  {property : RecurProperty}

/-- A stored date is written as a day: it lies in the first second of one, in UTC and in the writing
calendar. -/
structure IsDay (writer : Calendar) (date : Moment) (midnight : WallTime) : Prop where
  instant : (midnight.micros : Int) = Instant.whole date.instant
  start : midnight.secondOfDay = 0
  offset : writer.zone.offsetAt date.instant = 0
  once : writer.zone.showsOnce midnight = some true

/-- The two ways in which a stored date moves: the part of a second by which its instant is past a full second
of UTC is not written, and the reading calendar has the day that is written at another instant. -/
inductive Moves (writer reader : Calendar) (date : Moment) : Prop
  | part (fraction : date.offset % 1000000 ≠ 0) (timed : ∀ midnight, ¬IsDay writer date midnight)
  | day {midnight : WallTime} (isDay : IsDay writer date midnight)
      (apart : ∀ read ∈ reader.zone.localize midnight, read.instant ≠ date.instant)

theorem IsDay.eq {other : WallTime} (isDay : IsDay writer date midnight)
    (isOther : IsDay writer date other) : midnight = other := by
  apply WallTime.eq_of_micros
  have first := isDay.instant
  have second := isOther.instant
  omega

theorem not_moves_iff_of_isDay {read : Moment} (isDay : IsDay writer date midnight)
    (localized : reader.zone.localize midnight = some read) :
    ¬Moves writer reader date ↔ read.instant = date.instant := by
  constructor
  · intro stays
    refine Decidable.byContradiction fun differs => stays (.day isDay fun other member => ?_)
    obtain rfl := Option.some.inj (localized.symm.trans member)
    exact differs
  · intro same moves
    cases moves with
    | part _ timed => exact timed midnight isDay
    | day other apart =>
        obtain rfl := isDay.eq other
        exact apart read localized same

theorem not_moves_iff_of_timed (timed : ∀ midnight, ¬IsDay writer date midnight) :
    ¬Moves writer reader date ↔ date.offset % 1000000 = 0 := by
  constructor
  · exact fun stays => Decidable.byContradiction fun fraction => stays (.part fraction timed)
  · intro inSeconds moves
    cases moves with
    | part fraction _ => exact fraction inSeconds
    | day isDay _ => exact timed _ isDay

/-- A time in UTC may be written as a day exactly if it is the midnight of one. -/
theorem isDay_iff {own : Bool} (instant : (second.micros : Int) = Instant.whole date.instant)
    (isOwn : RuleText.isLocal writer ⟨second, 0, .utc⟩ = some own) :
    IsDay writer date midnight ↔ midnight = second ∧ (own && second.secondOfDay == 0) = true := by
  have offset : writer.zone.face ⟨second, 0, .utc⟩ = second.micros ↔
      writer.zone.offsetAt date.instant = 0 := by
    rw [face_utc, Zone.clock, instant, Zone.offsetAt_whole]
    omega
  rw [Bool.and_eq_true, beq_iff_eq, RuleText.own_iff isOwn, offset]
  constructor
  · intro day
    obtain rfl : midnight = second := by
      apply WallTime.eq_of_micros
      have same := day.instant
      omega
    exact ⟨rfl, ⟨⟨day.offset, day.once⟩, day.start⟩⟩
  · rintro ⟨rfl, ⟨⟨offset, once⟩, start⟩⟩
    exact ⟨instant, start, offset, once⟩

theorem firstRule_of_readText {text : String} {read : Rule}
    (reads : RuleText.readText reader RuleGuard.defaultLimit text = .ok read) :
    firstRule reader [text] = .ok (some read) := by
  rw [firstRule, RuleText.read, reads]
  rfl

theorem inRange_of_firstRule {texts : List String} {read : Option Rule}
    (reads : firstRule reader texts = .ok read) : firstRule reader texts ≠ .error .outOfRange := by
  rw [reads]
  nofun

/-- A property holds a rule with this last date, in the whole second of UTC in which it lies. -/
structure Holds (writer : Calendar) (property : RecurProperty) (rule : Rule) (date : Moment)
    (second : WallTime) : Prop where
  instant : (second.micros : Int) = Instant.whole date.instant
  whole : date.wall.microsecond = 0
  valid : ({ rule with ending := .afterDate ⟨second, 0, .utc⟩ } : Rule).Valid
  isWritten : RuleText.write writer { rule with ending := .afterDate ⟨second, 0, .utc⟩ } =
    some property.text
  fits : (property.text.toList.length : Int) ≤ RuleGuard.defaultLimit

theorem exists_holds (valid : rule.Valid) (ends : rule.ending = .afterDate date)
    (stored : ofRule writer rule = some property)
    (fits : (property.text.toList.length : Int) ≤ RuleGuard.defaultLimit) :
    ∃ second, Holds writer property rule date second := by
  obtain ⟨converted, isConverted, isWritten⟩ := text_of_ofRule valid stored
  have converts := converted_of_inUtc valid isConverted
  obtain ⟨second, instant, _, rfl⟩ := inUtc_eq_some ends isConverted
  have whole := valid.2.1
  rw [ends] at whole
  exact ⟨second, instant, whole, converts.valid, isWritten, fits⟩

namespace Holds

theorem text_eq (holds : Holds writer property rule date second) {form : RuleText.DateForm}
    (formed : RuleText.dateForm writer ⟨second, 0, .utc⟩ = some form) :
    property.text =
      RuleText.textWith { rule with ending := .afterDate ⟨second, 0, .utc⟩ } form.chars :=
  Option.some.inj (holds.isWritten.symm.trans (RuleText.write_of_dateForm rfl formed))

theorem exists_form (holds : Holds writer property rule date second) :
    ∃ own, RuleText.isLocal writer ⟨second, 0, .utc⟩ = some own ∧
      RuleText.dateForm writer ⟨second, 0, .utc⟩ =
        some (if own && second.secondOfDay == 0 then .day second else .utc second) := by
  obtain ⟨_, isEnding⟩ := RuleText.exists_endingEntries_of_write holds.isWritten
  obtain ⟨form, formed, _⟩ := Option.map_eq_some_iff.mp isEnding
  obtain ⟨own, isOwn⟩ := RuleText.exists_isLocal_of_dateForm formed
  exact ⟨own, isOwn, RuleText.dateForm_of_utc isOwn rfl⟩

/-- A time in UTC is read as such. -/
theorem firstRule_utc (holds : Holds writer property rule date second)
    (formed : RuleText.dateForm writer ⟨second, 0, .utc⟩ = some (.utc second)) :
    firstRule reader [property.text] =
      .ok (some { rule with ending := .afterDate ⟨second, 0, .utc⟩ }) := by
  have whole : second.microsecond = 0 := holds.valid.2.1
  have plain := RuleText.plain_of_simple (RuleText.simple_of_utc formed rfl)
  have fits := holds.fits
  rw [holds.text_eq formed] at fits ⊢
  exact firstRule_of_readText (RuleText.readText_of_lastDate holds.valid rfl formed plain
    (Until.read_utc whole) whole fits)

/-- A day is read as its midnight in the reading calendar. -/
theorem firstRule_day (holds : Holds writer property rule date second)
    (formed : RuleText.dateForm writer ⟨second, 0, .utc⟩ = some (.day second))
    (start : second.secondOfDay = 0) (inRange : firstRule reader [property.text] ≠ .error .outOfRange) :
    ∃ read, reader.zone.localize second = some read ∧
      firstRule reader [property.text] = .ok (some { rule with ending := .afterDate read }) := by
  have whole : second.microsecond = 0 := holds.valid.2.1
  have plain := RuleText.plain_of_simple (RuleText.simple_of_utc formed rfl)
  have reads : Until.read reader (RuleText.DateForm.day second).chars = _ :=
    Until.read_day whole start
  have fits := holds.fits
  rw [holds.text_eq formed] at fits inRange ⊢
  cases localized : reader.zone.localize second with
  | none =>
      rw [localized] at reads
      refine absurd ?_ inRange
      rw [firstRule, RuleText.read, RuleText.readText_of_unread plain reads fits]
      rfl
  | some read =>
      rw [localized] at reads
      have readWhole : read.wall.microsecond = 0 := by rw [Zone.wall_of_localize localized, whole]
      exact ⟨read, rfl, firstRule_of_readText
        (RuleText.readText_of_lastDate holds.valid rfl formed plain reads readWhole fits)⟩

/-- The second that is stored is the date itself if the date has an offset of whole seconds. -/
theorem instant_eq_iff (holds : Holds writer property rule date second) :
    (Moment.mk second 0 .utc).instant = date.instant ↔ date.offset % 1000000 = 0 := by
  have whole := holds.whole
  have isSecond := holds.instant
  have opened : (date.wall.micros : Int) - date.offset = date.instant := rfl
  change (second.micros : Int) - 0 = date.instant ↔ date.offset % 1000000 = 0
  simp only [WallTime.microsecond, microsPerSecond, Instant.whole] at whole isSecond
  omega

/-- A calendar that does not break off reads a stored rule as it was but for its last date, and this is at the
instant that was stored exactly if the date does not move. -/
theorem exists_read (holds : Holds writer property rule date second)
    (inRange : firstRule reader [property.text] ≠ .error .outOfRange) :
    ∃ read : Moment, firstRule reader [property.text] =
        .ok (some { rule with ending := .afterDate read }) ∧
      (read.instant = date.instant ↔ ¬Moves writer reader date) := by
  obtain ⟨own, isOwn, formed⟩ := holds.exists_form
  have days (midnight : WallTime) := @isDay_iff _ writer date second midnight own holds.instant isOwn
  by_cases isMidnight : (own && second.secondOfDay == 0) = true
  · rw [if_pos isMidnight] at formed
    have start : second.secondOfDay = 0 := by
      rw [Bool.and_eq_true, beq_iff_eq] at isMidnight
      exact isMidnight.2
    obtain ⟨read, localized, isRead⟩ := holds.firstRule_day formed start inRange
    have isDay : IsDay writer date second := (days second).mpr ⟨rfl, isMidnight⟩
    exact ⟨read, isRead, (not_moves_iff_of_isDay isDay localized).symm⟩
  · rw [if_neg isMidnight] at formed
    have timed (midnight : WallTime) : ¬IsDay writer date midnight := fun day =>
      isMidnight ((days midnight).mp day).2
    refine ⟨_, holds.firstRule_utc formed, ?_⟩
    rw [holds.instant_eq_iff, not_moves_iff_of_timed timed]

end Holds

end Recurrence.ICalendar
