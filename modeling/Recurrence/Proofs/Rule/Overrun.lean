import Recurrence.Proofs.Rule.Acceptance
import Recurrence.Proofs.Zone.Edge
import Recurrence.RuleCheck

namespace Recurrence

/-! Which values are neither read as a rule nor refused with an error of their own.

Reading breaks off when a last date is a time that its zone shows only outside the calendar.  The date
is well spelled, and every assignment before it is read; what follows is not looked at
(`RuleText.answers_iff_not_breaksOff`).
-/

def ParseFailure.isRule : ParseFailure → Bool
  | .rule _ => true
  | _ => false

namespace Until

variable [Zone.Directory] {calendar : Calendar}

/-- The value of a last date names a time in a zone. -/
def Names (calendar : Calendar) (value : List Char) (zone : Zone) (time : WallTime) : Prop :=
  ∃ named date parts, zoned value = .ok (named, date) ∧ parts? date = some parts ∧
    parts.wallTime = .ok time ∧ zone = named.getD calendar.zone

theorem read_eq_ok_iff {value : List Char} {result : Option Moment} :
    Until.read calendar value = .ok result ↔
      ∃ zone time, Names calendar value zone time ∧ zone.localize time = result := by
  constructor
  · intro reads
    rw [Until.read, RuleText.bind_eq_ok] at reads
    obtain ⟨⟨named, date⟩, cut, reads⟩ := reads
    cases digits : parts? date with
    | none =>
        simp only [digits] at reads
        contradiction
    | some parts =>
        simp only [digits, Calendar.makeDate] at reads
        cases made : parts.wallTime with
        | error fault =>
            rw [made] at reads
            contradiction
        | ok time =>
            rw [made] at reads
            exact ⟨named.getD calendar.zone, time, ⟨named, date, parts, cut, digits, made, rfl⟩,
              Except.ok.inj reads⟩
  · rintro ⟨_, time, ⟨named, date, parts, cut, digits, made, rfl⟩, localized⟩
    have isMade : calendar.makeDate parts named = .ok result := by
      rw [Calendar.makeDate, made, Except.map, localized]
    exact read_of_parts cut digits isMade

end Until

namespace RuleGuard

/-- The checks pass a text on as it is, and only one without control characters. -/
theorem checkText_eq_ok {text checked : String} {limit : Int} (passes : checkText text limit = .ok checked) :
    checked = text ∧ ∀ c ∈ text.toList, RuleText.isLineBreak c = false := by
  rw [checkText] at passes
  split at passes
  · contradiction
  · split at passes
    · cases writable : Digits.isWritable limit <;> simp [writable] at passes
    · split at passes
      · contradiction
      · next noFault =>
          cases passes
          refine ⟨rfl, fun c member => ?_⟩
          unfold charFault? at noFault
          split at noFault
          · contradiction
          · have noControl := RuleText.findChar_eq_none.1 (Option.map_eq_none_iff.1 noFault) c member
            cases isBreak : RuleText.isLineBreak c with
            | false => rfl
            | true =>
                simp only [RuleText.isLineBreak, Bool.or_eq_true, decide_eq_true_eq] at isBreak
                rcases isBreak with rfl | rfl <;> contradiction

/-- Only the limit of a text may be too long to be written. -/
theorem checkText_eq_error {text : String} {limit : Int} {failure : ParseFailure}
    (checked : checkText text limit = .error failure) (noRule : failure.isRule = false) :
    text.isEmpty = false ∧ limit < text.toList.length ∧ Digits.isWritable limit = false := by
  rw [checkText] at checked
  split at checked
  · cases checked
    cases noRule
  · next filled =>
      split at checked
      · next long =>
          cases writable : Digits.isWritable limit with
          | true =>
              rw [writable, if_pos rfl] at checked
              cases checked
              cases noRule
          | false => exact ⟨Bool.eq_false_iff.mpr filled, long, rfl⟩
      · split at checked
        · cases checked
          cases noRule
        · contradiction

end RuleGuard

namespace RuleText

theorem writtenPieces_append {frequency : Frequency} {entries later : List (Key × List Char)} :
    writtenPieces frequency (entries ++ later) =
      writtenPieces frequency entries ++ later.map written := by
  rw [writtenPieces, writtenPieces, List.map_append, List.cons_append]

theorem outOfRange_ne_fault (finding : Finding) :
    (.error .outOfRange : Except Stop Rule) ≠ .error (.fault finding) := by
  intro same
  cases same

variable [Zone.Directory] {calendar : Calendar}

/-- A text runs out of the calendar at a last date.  The assignments before it are those of a rule
without an end, and its zone shows the time that it names only at an instant outside the calendar. -/
structure Overruns (calendar : Calendar) (text : List Char) (entries : List (Key × List Char))
    (rule : Rule) (value : List Char) (zone : Zone) (time : WallTime) : Prop where
  front : ∃ tail, text = join ';' (writtenPieces rule.frequency (entries ++ [(.lastDate, value)])) ++ tail ∧
    (tail = [] ∨ ∃ rest, tail = ';' :: rest)
  noSemicolon : ∀ entry ∈ entries ++ [(Key.lastDate, value)], ';' ∉ entry.2
  assigns : Assigns calendar entries rule
  endless : rule.ending = .never
  names : Until.Names calendar value zone time
  consults : zone.consults = true
  outside : ¬time.InCalendar (zone.offsetAt time.micros)

variable {entries : List (Key × List Char)} {rule : Rule} {value text : List Char}

/-- Reading that runs out of the calendar has read whole assignments up to the last date at which it runs
out. -/
theorem overruns_of_readAt {start : Nat} (stops : readAt calendar start text = .error .outOfRange) :
    ∃ entries rule value zone time, Overruns calendar text entries rule value zone time := by
  obtain ⟨parts, some, absent, closes, cut⟩ := exists_parts start text
  cases parts with
  | nil => exact absurd rfl some
  | cons first rest =>
      obtain ⟨frequency, rfl, later⟩ := (readAt_eq_iff _ cut outOfRange_ne_fault).1 stops
      obtain ⟨entries, value, others, rule, rfl, areNew, _, understood, endless, unread⟩ :=
        readLater_eq_outOfRange.1 later
      obtain ⟨zone, time, names, unread⟩ := Until.read_eq_ok_iff.1 unread
      obtain ⟨consults, outside⟩ := Zone.localize_eq_none_iff.1 unread
      have distinct := areNew_frequency.1 areNew
      have same : rule.frequency = frequency :=
        ((understood_iff distinct).1 understood).2.frequency
      subst same
      have parts : assigned "FREQ" rule.frequency.name.toList ::
          (entries.map written ++ written (.lastDate, value) :: others) =
            writtenPieces rule.frequency (entries ++ [(.lastDate, value)]) ++ others := by
        rw [writtenPieces_append, List.append_assoc]
        rfl
      rw [parts] at closes absent
      refine ⟨entries, rule, value, zone, time, closes.exists_tail (List.cons_ne_nil _ _),
        fun entry member => ?_, assigns_iff.2 ⟨distinct, understood⟩, endless, names, consults, outside⟩
      have isPart : written entry ∈ writtenPieces rule.frequency (entries ++ [(.lastDate, value)]) :=
        List.mem_cons_of_mem _ (List.mem_map_of_mem member)
      exact noSemicolon_written.1 (absent _ (List.mem_append_left others isPart))

theorem Overruns.readAt_eq {zone : Zone} {time : WallTime} (start : Nat)
    (overruns : Overruns calendar text entries rule value zone time) :
    readAt calendar start text = .error .outOfRange := by
  obtain ⟨tail, rfl, apart⟩ := overruns.front
  obtain ⟨distinct, understood⟩ := assigns_iff.1 overruns.assigns
  have unread := Until.read_eq_ok_iff.2
    ⟨zone, time, overruns.names, Zone.localize_eq_none_iff.2 ⟨overruns.consults, overruns.outside⟩⟩
  have filled : writtenPieces rule.frequency (entries ++ [(.lastDate, value)]) ≠ [] :=
    List.cons_ne_nil _ _
  obtain ⟨more, cut⟩ := exists_pieces_append filled (noSemicolon_writtenPieces overruns.noSemicolon)
    writtenPieces_filled start apart
  rw [writtenPieces_append, List.append_assoc, writtenPieces, List.cons_append] at cut
  rw [writtenPieces_append]
  refine (readAt_eq_iff _ cut outOfRange_ne_fault).2 ⟨rule.frequency, rfl, ?_⟩
  exact readLater_eq_outOfRange.2 ⟨entries, value, more, rule, rfl, areNew_frequency.2 distinct,
    by decide, understood, overruns.endless, unread⟩

theorem readAt_eq_outOfRange {start : Nat} :
    readAt calendar start text = .error .outOfRange ↔
      ∃ entries rule value zone time, Overruns calendar text entries rule value zone time := by
  constructor
  · exact overruns_of_readAt
  · rintro ⟨entries, rule, value, zone, time, overruns⟩
    exact overruns.readAt_eq start

/-- Only the first and the last day of the calendar can be run out of. -/
theorem Overruns.day {zone : Zone} {time : WallTime}
    (overruns : Overruns calendar text entries rule value zone time) :
    time.day = 0 ∨ time.day + 1 = dayCount :=
  Zone.day_of_localize_eq_none (Zone.localize_eq_none_iff.2 ⟨overruns.consults, overruns.outside⟩)

theorem readAt_ne_outOfText {start : Nat} : readAt calendar start text ≠ .error .outOfText := by
  intro stops
  obtain ⟨parts, some, _, _, cut⟩ := exists_parts start text
  cases parts with
  | nil => exact absurd rfl some
  | cons first rest =>
      obtain ⟨frequency, _, later⟩ := (readAt_eq_iff (.error .outOfText) cut fun _ => nofun).1 stops
      exact readLater_ne_outOfText later

theorem readPartial_eq_outOfRange {text : String} (oneLine : ∀ c ∈ text.toList, isLineBreak c = false) :
    readPartial calendar text 0 none = .error .outOfRange ↔
      readAt calendar 0 text.toList = .error .outOfRange := by
  rw [readPartial_eq, window_eq_self oneLine]
  cases readAt calendar 0 text.toList with
  | ok rule => simp [Except.map, Except.mapError]
  | error stop => cases stop <;> simp [Except.map, Except.mapError, Stop.about]

/-- A line is read without an answer exactly if it runs out of the calendar. -/
theorem readPartial_breaksOff_iff {text : String} (oneLine : ∀ c ∈ text.toList, isLineBreak c = false) :
    (∃ failure, readPartial calendar text 0 none = .error failure ∧ failure.isRule = false) ↔
      ∃ entries rule value zone time, Overruns calendar text.toList entries rule value zone time := by
  rw [readPartial_eq, window_eq_self oneLine, ← @readAt_eq_outOfRange _ calendar text.toList 0]
  have inText := @readAt_ne_outOfText _ calendar text.toList 0
  cases read : readAt calendar 0 text.toList with
  | ok rule => simp [Except.map, Except.mapError]
  | error stop =>
      cases stop with
      | fault finding => simp [Except.map, Except.mapError, Stop.about, ParseFailure.isRule]
      | outOfRange => simp [Except.map, Except.mapError, Stop.about, ParseFailure.isRule]
      | outOfText => exact absurd read inText

/-- How a value breaks reading off.

* `date`: it is a text that passes all checks and runs out of the calendar.
* `limit`: it is a text that is too long, and the limit has too many digits to be told.
* `value`: it is no text and cannot be shown. -/
inductive BreaksOff (reach : Nat) (calendar : Calendar) (limit : Int) : Value → Prop
  | date {text : String} {entries : List (Key × List Char)} {rule : Rule} {final : List Char} {zone : Zone}
      {time : WallTime} (passes : RuleGuard.checkText text limit = .ok text)
      (overruns : Overruns calendar text.toList entries rule final zone time) :
      BreaksOff reach calendar limit (.text text)
  | limit {text : String} (filled : text.isEmpty = false) (long : limit < text.toList.length)
      (unwritable : Digits.isWritable limit = false) : BreaksOff reach calendar limit (.text text)
  | value {value : Value} {fault : Value.WritingFault} (noText : ∀ text, value ≠ .text text)
      (unwritable : value.writingFault? reach = some fault) : BreaksOff reach calendar limit value

theorem readText_breaksOff_iff {reach : Nat} {limit : Int} {text : String} :
    (∃ failure, readText calendar limit text = .error failure ∧ failure.isRule = false) ↔
      BreaksOff reach calendar limit (.text text) := by
  constructor
  · rintro ⟨failure, stops, noRule⟩
    simp only [readText, bind_eq_error, map_eq_error] at stops
    rcases stops with checked | ⟨same, passes, stops⟩
    · obtain ⟨filled, long, unwritable⟩ := RuleGuard.checkText_eq_error checked noRule
      exact .limit filled long unwritable
    · obtain ⟨rfl, oneLine⟩ := RuleGuard.checkText_eq_ok passes
      obtain ⟨entries, rule, final, zone, time, overruns⟩ :=
        (readPartial_breaksOff_iff oneLine).mp ⟨failure, stops, noRule⟩
      exact .date passes overruns
  · intro breaks
    simp only [readText]
    cases breaks with
    | date passes overruns =>
        rw [passes]
        obtain ⟨failure, stops, noRule⟩ :=
          (readPartial_breaksOff_iff (RuleGuard.checkText_eq_ok passes).2).mpr
          ⟨_, _, _, _, _, overruns⟩
        exact ⟨failure, map_eq_error.mpr stops, noRule⟩
    | limit filled long unwritable =>
        refine ⟨.unwritten .tooManyDigits, ?_, rfl⟩
        rw [RuleGuard.checkText, filled, if_neg Bool.false_ne_true, if_pos long, unwritable,
          if_neg Bool.false_ne_true]
        rfl
    | value noText _ => exact absurd rfl (noText text)

/-- Reading gives no answer for exactly the values that break it off. -/
theorem readValue_breaksOff_iff {reach : Nat} {limit : Int} {value : Value} :
    (∃ failure, readValue reach calendar limit value = .error failure ∧ failure.isRule = false) ↔
      BreaksOff reach calendar limit value := by
  by_cases isText : ∃ text, value = .text text
  · obtain ⟨text, rfl⟩ := isText
    exact readText_breaksOff_iff
  · have noText : ∀ text, value ≠ .text text := fun text same => isText ⟨text, same⟩
    have refused : readValue reach calendar limit value = .error (RuleGuard.notText reach value) := by
      cases value with
      | text text => exact absurd rfl (noText text)
      | _ => rfl
    rw [refused, RuleGuard.notText, Value.literal]
    constructor
    · rintro ⟨failure, stops, noRule⟩
      cases fault : value.writingFault? reach with
      | some fault => exact .value noText fault
      | none =>
          rw [fault] at stops
          cases stops
          contradiction
    · intro breaks
      cases breaks with
      | date | limit => exact absurd rfl (noText _)
      | @value _ fault _ unwritable =>
          rw [unwritable]
          exact ⟨.unwritten fault, rfl, rfl⟩

/-- A rule breaks reading off if what is written for its last date runs out of the calendar. -/
theorem readText_of_unread {chars : List Char} {limit : Int} (plain : Plain chars)
    (unread : Until.read calendar chars = .ok none)
    (fits : ((textWith rule chars).toList.length : Int) ≤ limit) :
    readText calendar limit (textWith rule chars) = .error .outOfRange := by
  obtain ⟨zone, time, names, unread⟩ := Until.read_eq_ok_iff.mp unread
  obtain ⟨consults, outside⟩ := Zone.localize_eq_none_iff.mp unread
  have plainPieces : ∀ piece ∈ writtenPieces rule.frequency
      ([(.lastDate, chars)] ++ intervalEntries rule ++ partEntries rule rule.restrictions),
      Plain piece :=
    plain_writtenPieces (plain_entries rule (List.forall_mem_singleton.mpr plain))
  have stops : readAt calendar 0 (join ';' (writtenPieces rule.frequency
      ([(.lastDate, chars)] ++ intervalEntries rule ++ partEntries rule rule.restrictions))) =
      .error .outOfRange := by
    refine readAt_eq_outOfRange.mpr ⟨[], { frequency := rule.frequency }, chars, zone, time, ?_⟩
    rw [List.append_assoc, writtenPieces_append]
    refine ⟨Closes.exists_tail (.inl rfl) (List.cons_ne_nil _ _), ?_, ?_, rfl, names, consults, outside⟩
    · exact List.forall_mem_singleton.mpr fun semicolon =>
        absurd (plain_iff.mp plain ';' semicolon) (by decide)
    · exact assigns_iff.mpr ⟨List.nodup_nil, .done _⟩
  rw [textWith, String.toList_ofList] at fits
  rw [readText, textWith, check_join plainPieces join_writtenPieces_ne_nil fits]
  simp only [readPartial_eq, String.toList_ofList, window_join plainPieces, stops, bind, Except.bind,
    Except.map, Except.mapError, Stop.about]

/-- A value is read as a rule, or it is refused with an error of its own. -/
def Answers (reach : Nat) (calendar : Calendar) (limit : Int) (value : Value) : Prop :=
  (∃ rule, readValue reach calendar limit value = .ok rule) ∨
    ∃ error, readValue reach calendar limit value = .error (.rule error)

theorem answers_iff_not_exists {reach : Nat} {limit : Int} {value : Value} :
    Answers reach calendar limit value ↔
      ¬∃ failure, readValue reach calendar limit value = .error failure ∧ failure.isRule = false := by
  unfold Answers
  cases readValue reach calendar limit value with
  | ok rule => simp
  | error failure => cases failure <;> simp [ParseFailure.isRule]

/-- Reading answers, and validating gives a verdict, for exactly the values that do not break it off. -/
theorem answers_iff_not_breaksOff (reach : Nat) (calendar : Calendar) (limit : Int) (value : Value) :
    (Answers reach calendar limit value ↔ ¬BreaksOff reach calendar limit value) ∧
    (∀ requireEnd, (RuleCheck.validate reach calendar value requireEnd).isSome = true ↔
      ¬BreaksOff reach calendar RuleGuard.defaultLimit value) ∧
    ∀ text entries rule final zone time, Overruns calendar text entries rule final zone time →
      time.day = 0 ∨ time.day + 1 = dayCount := by
  refine ⟨?_, fun requireEnd => ?_, fun _ _ _ _ _ _ overruns => overruns.day⟩
  · rw [answers_iff_not_exists, readValue_breaksOff_iff]
  · rw [← readValue_breaksOff_iff, RuleCheck.validate]
    cases readValue reach calendar RuleGuard.defaultLimit value with
    | ok rule =>
        simp only
        split <;> simp
    | error failure => cases failure <;> simp [ParseFailure.isRule]

def newYorkCalendar : Calendar := ⟨.varying Zone.NewYork.history .reader, .monday⟩

/-- In New York the last second of the calendar is an instant behind it. -/
def untilLastSecond : Value := .text "FREQ=DAILY;UNTIL=99991231T235959"

end RuleText

namespace RuleText

attribute [local instance] Zone.table

theorem outOfRange_untilLastSecond :
    readValue 1000 newYorkCalendar RuleGuard.defaultLimit untilLastSecond = .error .outOfRange := by
  change (RuleGuard.checkText _ _ >>= fun _ => Except.map _ _) = _
  simp only [readPartial_eq]
  decide +kernel

theorem breaksOff_untilLastSecond :
    ¬(RuleCheck.validate 1000 newYorkCalendar untilLastSecond false).isSome = true ∧
      ∃ text entries rule final zone time, untilLastSecond = .text text ∧
        RuleGuard.checkText text RuleGuard.defaultLimit = .ok text ∧
        Overruns newYorkCalendar text.toList entries rule final zone time ∧
        (time.day = 0 ∨ time.day + 1 = dayCount) := by
  obtain ⟨answers, verdict, day⟩ :=
    answers_iff_not_breaksOff 1000 newYorkCalendar RuleGuard.defaultLimit untilLastSecond
  have breaks : BreaksOff 1000 newYorkCalendar RuleGuard.defaultLimit untilLastSecond :=
    readValue_breaksOff_iff.mp ⟨.outOfRange, outOfRange_untilLastSecond, rfl⟩
  refine ⟨fun judged => (verdict false).1 judged breaks, ?_⟩
  cases breaks with
  | date passes overruns =>
      exact ⟨_, _, _, _, _, _, rfl, passes, overruns, day _ _ _ _ _ _ overruns⟩
  | limit filled long unwritable => exact absurd long (by decide)
  | value noText _ => exact absurd rfl (noText _)

theorem not_forall_answers :
    ¬∀ (calendar : Calendar) (limit : Int) (value : Value), Answers 1000 calendar limit value ∧
      ∀ requireEnd, (RuleCheck.validate 1000 calendar value requireEnd).isSome = true := by
  intro always
  have answers := (always newYorkCalendar RuleGuard.defaultLimit untilLastSecond).1
  exact answers_iff_not_exists.1 answers ⟨.outOfRange, outOfRange_untilLastSecond, rfl⟩

end RuleText

end Recurrence
