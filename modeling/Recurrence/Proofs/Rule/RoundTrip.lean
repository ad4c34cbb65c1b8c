import Mathlib.Data.List.Nodup
import Recurrence.Proofs.Rule.Effects
import Recurrence.Proofs.Rule.Line
import Recurrence.Zone.Table

namespace Recurrence

/-! A written rule is read back.

The text of a rule is cut into the assignments from which it was joined (`pieces_join`), and these are
read as a run (`readLater_of_understood`).  It ends at the rule that was written, but for a last date that
is moved by writing it (`readText_write`).
-/

namespace RuleText

def intervalEntries (rule : Rule) : List (Key × List Char) :=
  if 1 < rule.interval then [(.interval, Digits.ofInt rule.interval 0)] else []

def partEntries (rule : Rule) (parts : List Part) : List (Key × List Char) :=
  parts.map fun part => (.restriction part, partValue rule part)

theorem intervalPieces_eq (rule : Rule) : intervalPieces rule = (intervalEntries rule).map written := by
  unfold intervalPieces intervalEntries
  split <;> rfl

theorem partPieces_eq (rule : Rule) :
    partPieces rule = (partEntries rule rule.restrictions).map written := by
  rw [partPieces, partEntries, List.map_map]
  rfl

def endingKeys : Ending → List Key
  | .never => []
  | .afterCount _ => [.count]
  | .afterDate _ => [.lastDate]

def intervalKeys (rule : Rule) : List Key := if 1 < rule.interval then [.interval] else []

theorem keys_intervalEntries (rule : Rule) :
    (intervalEntries rule).map Prod.fst = intervalKeys rule := by
  unfold intervalEntries intervalKeys
  split <;> rfl

theorem keys_partEntries (rule : Rule) (parts : List Part) :
    (partEntries rule parts).map Prod.fst = parts.map Key.restriction := by
  rw [partEntries, List.map_map]
  rfl

theorem nodup_keys (rule : Rule) :
    (endingKeys rule.ending ++ intervalKeys rule ++ rule.restrictions.map Key.restriction).Nodup := by
  have restrictions : (rule.restrictions.map Key.restriction).Nodup :=
    List.Nodup.map (fun _ _ same => Key.restriction.inj same)
      (List.Nodup.filter _ (by decide : Part.all.Nodup))
  have heads : (endingKeys rule.ending ++ intervalKeys rule).Nodup ∧
      ∀ part, Key.restriction part ∉ endingKeys rule.ending ++ intervalKeys rule := by
    unfold intervalKeys
    cases rule.ending <;> split <;> simp [endingKeys]
  refine List.nodup_append.2 ⟨heads.1, restrictions, ?_⟩
  rintro key inHeads other inParts rfl
  obtain ⟨part, _, rfl⟩ := List.mem_map.1 inParts
  exact heads.2 part inHeads

theorem plain_written {entry : Key × List Char} (plain : Plain entry.2) : Plain (written entry) := by
  refine plain_assigned ?_ plain
  cases entry.1 with
  | restriction part => exact plain_key part
  | _ => decide

theorem plain_intervalEntries (rule : Rule) : ∀ entry ∈ intervalEntries rule, Plain entry.2 := by
  unfold intervalEntries
  split
  · exact List.forall_mem_singleton.2 (plain_ofInt rule.interval 0)
  · exact List.forall_mem_nil _

theorem plain_partEntries (rule : Rule) (parts : List Part) :
    ∀ entry ∈ partEntries rule parts, Plain entry.2 := by
  intro entry member
  obtain ⟨part, _, rfl⟩ := List.mem_map.1 member
  exact plain_partValue rule part

/-- All values of a rule are plain if what stands for its end is. -/
theorem plain_entries (rule : Rule) {ending : List (Key × List Char)}
    (plain : ∀ entry ∈ ending, Plain entry.2) :
    ∀ entry ∈ ending ++ intervalEntries rule ++ partEntries rule rule.restrictions, Plain entry.2 :=
  List.forall_mem_append.2 ⟨List.forall_mem_append.2 ⟨plain, plain_intervalEntries rule⟩,
    plain_partEntries rule rule.restrictions⟩

theorem readFirst_frequency (start : Nat) (frequency : Frequency) :
    readFirst ⟨start, assigned "FREQ" frequency.name.toList⟩ = .ok { frequency } := by
  have halves : cutAt? '=' (assigned "FREQ" frequency.name.toList) =
      some ("FREQ".toList, frequency.name.toList) :=
    cutAt?_eq_some.2 ⟨rfl, by decide⟩
  rw [readFirst, assignment, halves]
  simp [readFrequency, Frequency.ofName?_name, bind, Except.bind, pure, Except.pure]

def writtenPieces (frequency : Frequency) (entries : List (Key × List Char)) : List (List Char) :=
  assigned "FREQ" frequency.name.toList :: entries.map written

theorem Key.text_ne_frequency (key : Key) : key.text ≠ "FREQ" := by
  cases key with
  | restriction part => cases part <;> decide
  | _ => decide

section

variable {frequency : Frequency} {entries : List (Key × List Char)}

theorem plain_writtenPieces (plain : ∀ entry ∈ entries, Plain entry.2) :
    ∀ piece ∈ writtenPieces frequency entries, Plain piece := by
  refine List.forall_mem_cons.2 ⟨?_, fun piece member => ?_⟩
  · exact plain_assigned (by decide) (by cases frequency <;> decide)
  · obtain ⟨entry, listed, rfl⟩ := List.mem_map.1 member
    exact plain_written (plain entry listed)

theorem writtenPieces_filled : ∀ piece ∈ writtenPieces frequency entries, piece ≠ [] := by
  refine List.forall_mem_cons.2 ⟨List.cons_ne_nil _ _, fun piece member => ?_⟩
  obtain ⟨entry, _, rfl⟩ := List.mem_map.1 member
  exact written_ne_nil entry

theorem join_writtenPieces_ne_nil : join ';' (writtenPieces frequency entries) ≠ [] := by
  cases entries <;> simp [writtenPieces, join, assigned]

end

/-- The text of a rule, with what is written for its last date. -/
def textWith (rule : Rule) (lastDate : List Char) : String :=
  String.ofList (join ';' (writtenPieces rule.frequency
    ([(.lastDate, lastDate)] ++ intervalEntries rule ++ partEntries rule rule.restrictions)))

variable [Zone.Directory] {calendar : Calendar} {source rule : Rule}

/-- The assignment for the end of a rule, with its key. -/
def endingEntries (calendar : Calendar) : Ending → Option (List (Key × List Char))
  | .never => some []
  | .afterCount count => some [(.count, Digits.ofInt count 0)]
  | .afterDate date => (dateForm calendar date).map fun form => [(.lastDate, form.chars)]

theorem endingPieces_eq (ending : Ending) :
    endingPieces calendar ending = (endingEntries calendar ending).map (List.map written) := by
  cases ending with
  | never | afterCount => rfl
  | afterDate date =>
      rw [endingPieces, endingEntries, Option.map_map]
      rfl

theorem keys_endingEntries {ending : Ending} {entries : List (Key × List Char)}
    (isWritten : endingEntries calendar ending = some entries) :
    entries.map Prod.fst = endingKeys ending := by
  cases ending with
  | never | afterCount =>
      cases isWritten
      rfl
  | afterDate date =>
      obtain ⟨form, _, rfl⟩ := Option.map_eq_some_iff.1 isWritten
      rfl

theorem understood_ending {ending : Ending} {entries : List (Key × List Char)}
    (endless : rule.ending = .never) (valid : ending.Valid)
    (genuine : ∀ date ∈ ending.date?, date.Genuine) (agrees : calendar.zone.AgreesWithKey)
    (isWritten : endingEntries calendar ending = some entries) :
    ∃ read : Ending, (ending.same read = true ↔ ∀ date ∈ ending.date?, ¬Moves calendar date) ∧
      Understood calendar rule entries { rule with ending := read } := by
  cases ending with
  | never =>
      cases isWritten
      refine ⟨.never, iff_of_true rfl nofun, ?_⟩
      rw [← endless]
      exact .done rule
  | afterCount count =>
      cases isWritten
      exact ⟨.afterCount count, iff_of_true (beq_iff_eq.2 rfl) nofun,
        .step (assign_count endless valid) (.done _)⟩
  | afterDate date =>
      obtain ⟨form, formed, rfl⟩ := Option.map_eq_some_iff.1 isWritten
      obtain ⟨read, reads, whole, instant⟩ := read_dateForm (genuine date rfl) agrees valid formed
      have same : (Ending.afterDate date).same (.afterDate read) = true ↔ read.instant = date.instant :=
        beq_iff_eq.trans eq_comm
      refine ⟨.afterDate read, same.trans (instant.trans ⟨?_, fun stays => stays date rfl⟩),
        .step (assign_lastDate endless reads whole) (.done _)⟩
      rintro stays date ⟨⟩
      exact stays

theorem understood_interval (positive : 1 ≤ source.interval) (single : rule.interval = 1) :
    Understood calendar rule (intervalEntries source) { rule with interval := source.interval } := by
  unfold intervalEntries
  split
  · exact .step (assign_interval positive) (.done _)
  · have same : source.interval = rule.interval := by omega
    rw [same]
    exact .done rule

theorem understood_parts (valid : source.Valid) {parts : List Part}
    (restricted : ∀ part ∈ parts, source.restricts part = true) :
    Understood calendar rule (partEntries source parts) (parts.foldl source.adopt rule) := by
  induction parts generalizing rule with
  | nil => exact .done rule
  | cons part rest ih =>
      obtain ⟨first, others⟩ := List.forall_mem_cons.1 restricted
      exact .step (assign_restriction valid first) (ih others)

/-- All assignments after the frequency are read back, if those for the end are. -/
theorem understood_entries {entries : List (Key × List Char)} {read : Ending} (valid : source.Valid)
    (ending : Understood calendar { frequency := source.frequency } entries
      { frequency := source.frequency, ending := read }) :
    Understood calendar { frequency := source.frequency }
      (entries ++ intervalEntries source ++ partEntries source source.restrictions)
      { source with ending := read } := by
  have interval : Understood calendar { frequency := source.frequency, ending := read }
      (intervalEntries source)
      { frequency := source.frequency, interval := source.interval, ending := read } :=
    understood_interval valid.1 rfl
  have parts := @understood_parts _ calendar source
    { frequency := source.frequency, interval := source.interval, ending := read } valid
    source.restrictions fun part member => (List.mem_filter.1 member).2
  rw [Rule.foldl_adopt_restrictions] at parts
  exact (ending.append interval).append parts

theorem plain_endingEntries {ending : Ending} {entries : List (Key × List Char)}
    (genuine : ∀ date ∈ ending.date?, date.Genuine)
    (isWritten : endingEntries calendar ending = some entries) :
    ∀ entry ∈ entries, Plain entry.2 := by
  cases ending with
  | never =>
      cases isWritten
      exact List.forall_mem_nil _
  | afterCount count =>
      cases isWritten
      exact List.forall_mem_singleton.2 (plain_ofInt count 0)
  | afterDate date =>
      obtain ⟨form, formed, rfl⟩ := Option.map_eq_some_iff.1 isWritten
      exact List.forall_mem_singleton.2 (plain_dateForm (genuine date rfl) formed)

theorem rulePieces_eq (rule : Rule) :
    rulePieces calendar rule = (endingEntries calendar rule.ending).map fun entries =>
      writtenPieces rule.frequency
        (entries ++ intervalEntries rule ++ partEntries rule rule.restrictions) := by
  rw [rulePieces, endingPieces_eq, Option.map_map]
  congr 1
  funext entries
  simp [writtenPieces, intervalPieces_eq, partPieces_eq]

variable {frequency : Frequency} {entries : List (Key × List Char)}

theorem readAt_writtenPieces {last : Rule}
    (understood : Understood calendar { frequency } entries last)
    (distinct : (entries.map Prod.fst).Nodup) (plain : ∀ entry ∈ entries, Plain entry.2)
    (start : Nat) :
    readAt calendar start (join ';' (writtenPieces frequency entries)) = .ok last := by
  have fresh : ∀ entry ∈ entries, entry.1.text ∉ ["FREQ"] := fun entry _ member =>
    entry.1.text_ne_frequency (List.mem_singleton.1 member)
  have cut : RuleText.pieces start (join ';' (writtenPieces frequency entries)) =
      locate start (writtenPieces frequency entries) :=
    pieces_join (plain_writtenPieces plain) (List.cons_ne_nil _ _) writtenPieces_filled start
  rw [readAt_eq_readParts join_writtenPieces_ne_nil, cut, writtenPieces, locate, readParts,
    readFirst_frequency]
  exact readLater_of_understood understood ⟨distinct, fresh⟩ _

theorem readText_writtenPieces {last : Rule} {limit : Int}
    (understood : Understood calendar { frequency } entries last)
    (distinct : (entries.map Prod.fst).Nodup) (plain : ∀ entry ∈ entries, Plain entry.2)
    (fits : ((join ';' (writtenPieces frequency entries)).length : Int) ≤ limit) :
    readText calendar limit (String.ofList (join ';' (writtenPieces frequency entries))) = .ok last := by
  have plainPieces := @plain_writtenPieces frequency entries plain
  have checked := check_join plainPieces join_writtenPieces_ne_nil fits
  have line := window_join plainPieces
  rw [readText, checked]
  simp only [readPartial_eq, String.toList_ofList, line, readAt_writtenPieces understood distinct plain,
    bind, Except.bind, Except.map, mapError_ok]

/-- What a calendar writes is read, in whatever calendar, as the same rule but for its end: that is
what this calendar understands by the assignment for it. -/
theorem readText_of_understood {reader : Calendar} {ending : List (Key × List Char)} {read : Ending}
    {text : String} {limit : Int} (valid : rule.Valid)
    (isEnding : endingEntries calendar rule.ending = some ending)
    (plain : ∀ entry ∈ ending, Plain entry.2)
    (understood : Understood reader { frequency := rule.frequency } ending
      { frequency := rule.frequency, ending := read })
    (isWritten : write calendar rule = some text) (fits : (text.toList.length : Int) ≤ limit) :
    readText reader limit text = .ok { rule with ending := read } := by
  obtain ⟨pieces, isPieces, rfl⟩ := Option.map_eq_some_iff.1 isWritten
  rw [rulePieces_eq, isEnding, Option.map_some] at isPieces
  obtain rfl := Option.some.inj isPieces
  have distinct : ((ending ++ intervalEntries rule ++ partEntries rule rule.restrictions).map
      Prod.fst).Nodup := by
    rw [List.map_append, List.map_append, keys_endingEntries isEnding, keys_intervalEntries,
      keys_partEntries]
    exact nodup_keys rule
  rw [String.toList_ofList] at fits
  exact readText_writtenPieces (understood_entries valid understood) distinct (plain_entries rule plain)
    fits

theorem endingEntries_of_dateForm {date : Moment} {form : DateForm} (ends : rule.ending = .afterDate date)
    (formed : dateForm calendar date = some form) :
    endingEntries calendar rule.ending = some [(.lastDate, form.chars)] := by
  rw [ends, endingEntries, formed, Option.map_some]

theorem write_of_dateForm {date : Moment} {form : DateForm} (ends : rule.ending = .afterDate date)
    (formed : dateForm calendar date = some form) :
    write calendar rule = some (textWith rule form.chars) := by
  rw [write, rulePieces_eq, endingEntries_of_dateForm ends formed, Option.map_some, Option.map_some]
  rfl

/-- A rule with a last date is read as it is, with the date that is read in the form written for it. -/
theorem readText_of_lastDate {reader : Calendar} {date read : Moment} {form : DateForm} {limit : Int}
    (valid : rule.Valid) (ends : rule.ending = .afterDate date)
    (formed : dateForm calendar date = some form) (plain : Plain form.chars)
    (reads : Until.read reader form.chars = .ok (some read)) (whole : read.wall.microsecond = 0)
    (fits : ((textWith rule form.chars).toList.length : Int) ≤ limit) :
    readText reader limit (textWith rule form.chars) = .ok { rule with ending := .afterDate read } := by
  have understood : Understood reader { frequency := rule.frequency } [(.lastDate, form.chars)]
      { frequency := rule.frequency, ending := .afterDate read } :=
    .step (assign_lastDate rfl reads whole) (.done _)
  exact readText_of_understood valid (endingEntries_of_dateForm ends formed)
    (List.forall_mem_singleton.2 plain) understood (write_of_dateForm ends formed) fits

theorem exists_endingEntries_of_write {text : String} (isWritten : write calendar rule = some text) :
    ∃ ending, endingEntries calendar rule.ending = some ending := by
  obtain ⟨pieces, isPieces, rfl⟩ := Option.map_eq_some_iff.1 isWritten
  rw [rulePieces_eq, Option.map_eq_some_iff] at isPieces
  obtain ⟨ending, isEnding, _⟩ := isPieces
  exact ⟨ending, isEnding⟩

theorem exists_read_of_write {text : String} {limit : Int} (valid : rule.Valid)
    (genuine : ∀ date ∈ rule.ending.date?, date.Genuine) (agrees : calendar.zone.AgreesWithKey)
    (isWritten : write calendar rule = some text) (fits : (text.toList.length : Int) ≤ limit) :
    ∃ ending, readText calendar limit text = .ok { rule with ending } ∧
      (rule.ending.same ending = true ↔ ∀ date ∈ rule.ending.date?, ¬Moves calendar date) := by
  obtain ⟨entries, isEnding⟩ := exists_endingEntries_of_write isWritten
  obtain ⟨read, same, understood⟩ := @understood_ending _ calendar { frequency := rule.frequency } _ _ rfl
    valid.2.1 genuine agrees isEnding
  exact ⟨read, readText_of_understood valid isEnding (plain_endingEntries genuine isEnding) understood
    isWritten fits, same⟩

/-- A valid rule that is written is read back as it was but for its end, in every calendar and by every
reader that admits texts of its length.  The end is the same exactly unless writing moves the last date, which
may be any that comes about. -/
theorem readText_write {calendar : Calendar} {rule : Rule} {text : String} {limit : Int}
    (valid : rule.Valid)
    (genuine : ∀ date ∈ rule.ending.date?, ∃ made : Moment, made.Genuine ∧ date = made.truncate)
    (agrees : calendar.zone.AgreesWithKey) (isWritten : write calendar rule = some text)
    (fits : (text.toList.length : Int) ≤ limit) :
    ∃ ending, readText calendar limit text = .ok { rule with ending } ∧
      (rule.ending.same ending = true ↔ ∀ date ∈ rule.ending.date?, ¬Moves calendar date) := by
  refine exists_read_of_write valid (fun date member => ?_) agrees isWritten fits
  obtain ⟨made, genuine, rfl⟩ := genuine date member
  exact genuine.truncate

/-- The first of the two times 01:30 in the night in which New York leaves daylight saving. -/
def repeatedHour : Moment :=
  ⟨⟨63866194200000000, by decide⟩, -14400000000, .varying Zone.NewYork.history .reader⟩

def untilRepeatedHour : Rule where
  frequency := .weekly
  ending := .afterDate repeatedHour
  weekdays := [⟨some 2, .monday⟩, .every .sunday, ⟨some 2, .monday⟩]

/-- The midnight with which 2024 begins on a clock that is 234375 microseconds ahead of UTC. -/
def splitMidnight : Moment := ⟨⟨63839664000000000, by decide⟩, 234375, .fixed 234375 none 0⟩

def untilSplitMidnight : Rule where
  frequency := .daily
  ending := .afterDate splitMidnight

end RuleText

namespace RuleText

attribute [local instance] Zone.table

theorem listed_newYork : (Zone.varying Zone.NewYork.history .reader).Listed :=
  ⟨"America/New_York", by decide +kernel⟩

theorem genuine_repeatedHour : repeatedHour.Genuine := by
  have read : repeatedHour.zone.localizeWith repeatedHour.wall true = some repeatedHour := by
    decide +kernel
  exact Moment.genuine_of_localizeWith listed_newYork read

theorem genuine_splitMidnight : splitMidnight.Genuine where
  read := ⟨false, by decide⟩
  known := .inr rfl
  keyed := nofun

theorem readText_write_untilRepeatedHour :
    untilRepeatedHour.Valid ∧ repeatedHour.Genuine ∧
      (Zone.varying Zone.NewYork.history .reader).AgreesWithKey ∧
      write ⟨repeatedHour.zone, .monday⟩ untilRepeatedHour =
        some "FREQ=WEEKLY;UNTIL=20241103T053000Z;BYDAY=2MO,SU,2MO" ∧
      ∃ ending, readText ⟨repeatedHour.zone, .monday⟩ 60
          "FREQ=WEEKLY;UNTIL=20241103T053000Z;BYDAY=2MO,SU,2MO" = .ok { untilRepeatedHour with ending } ∧
        (untilRepeatedHour.ending.same ending = true ↔
          ∀ date ∈ untilRepeatedHour.ending.date?, ¬Moves ⟨repeatedHour.zone, .monday⟩ date) := by
  have valid : untilRepeatedHour.Valid := by decide
  have agrees : (Zone.varying Zone.NewYork.history .reader).AgreesWithKey := nofun
  have isWritten : write ⟨repeatedHour.zone, .monday⟩ untilRepeatedHour =
      some "FREQ=WEEKLY;UNTIL=20241103T053000Z;BYDAY=2MO,SU,2MO" := by
    decide +kernel
  have made : ∀ date ∈ untilRepeatedHour.ending.date?,
      ∃ made : Moment, made.Genuine ∧ date = made.truncate := by
    rintro date ⟨⟩
    exact ⟨repeatedHour, genuine_repeatedHour, by decide +kernel⟩
  exact ⟨valid, genuine_repeatedHour, agrees, isWritten,
    readText_write valid made agrees isWritten (by decide)⟩

/-- A midnight that falls between two seconds of UTC is written as the earlier of these. -/
theorem not_forall_readText_write :
    ¬∀ (calendar : Calendar) (rule : Rule) (text : String) (limit : Int), rule.Valid →
      (∀ date ∈ rule.ending.date?, ∃ made : Moment, made.Genuine ∧ date = made.truncate) →
      calendar.zone.AgreesWithKey → write calendar rule = some text →
      (text.toList.length : Int) ≤ limit →
      ∃ read, readText calendar limit text = .ok read ∧ rule.same read = true := by
  intro all
  have isWritten : write ⟨.utc, .monday⟩ untilSplitMidnight = some "FREQ=DAILY;UNTIL=20231231T235959Z" := by
    decide +kernel
  have made : ∀ date ∈ untilSplitMidnight.ending.date?,
      ∃ made : Moment, made.Genuine ∧ date = made.truncate := by
    rintro date ⟨⟩
    exact ⟨splitMidnight, genuine_splitMidnight, by decide⟩
  obtain ⟨read, reads, same⟩ := all ⟨.utc, .monday⟩ untilSplitMidnight _ 1024 (by decide) made nofun
    isWritten (by decide)
  have genuine : ∀ date ∈ untilSplitMidnight.ending.date?, date.Genuine := by
    rintro date ⟨⟩
    exact genuine_splitMidnight
  obtain ⟨ending, again, kept⟩ := @exists_read_of_write _ ⟨.utc, .monday⟩ untilSplitMidnight _ 1024
    (by decide) genuine nofun isWritten (by decide)
  obtain rfl := Except.ok.inj (reads.symm.trans again)
  have moves : Moves ⟨.utc, .monday⟩ splitMidnight := .part (by decide +kernel) (by decide)
  exact kept.mp (Rule.ending_same same) splitMidnight rfl moves

end RuleText

end Recurrence
