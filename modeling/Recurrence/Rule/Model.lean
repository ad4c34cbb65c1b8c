import Recurrence.Checked
import Recurrence.DateText
import Recurrence.Rule
import Recurrence.Timestamp

namespace Recurrence

/-! Rules from data, and rules as data.

`Rule.ofValue` checks every field of an object and reports all that is wrong; a rule that it accepts is
valid.  `Rule.summary` lists what a rule says.
-/

def textZoneMark : Nat := 9

def DateTime.ofUtc (time : WallTime) : DateTime :=
  .aware ⟨time, 0, .fixed 0 none textZoneMark⟩

def dateTimeOfText (text : String) : Checked DateTime :=
  match DateText.strict? text, Timestamp.read text.toList with
  | some ⟨time, none⟩, _ => .good (.naive time)
  | some ⟨time, some offset⟩, _ =>
      .good (.aware ⟨time, offset * 1000000, .fixed (offset * 1000000) none textZoneMark⟩)
  | none, some time => .good (.ofUtc time)
  | none, none =>
      if DateText.isOfYearZero text then .fail .dateOutOfRange else .fail .unreadableDate

def dateTimeOfNumber (time : Option WallTime) : Checked DateTime :=
  match time with
  | some time => .good (.ofUtc time)
  | none => .fail .dateOutOfRange

/-- Reads a date-time: a date, a text or a number.  Of the integers only those are numbers of seconds
that a number with a fraction can stand for. -/
def Value.dateTime : Value → Checked DateTime
  | .date value => .good value
  | .text value => dateTimeOfText value
  | .int value =>
      if Double.reaches value then dateTimeOfNumber (Timestamp.time? value 0) else .fail .noDate
  | .double value => dateTimeOfNumber (Timestamp.ofDouble? value)
  | _ => .fail .noDate

namespace DayEntry

def ordinalComplaint? (ordinal : Option Int) : Option String :=
  match ordinal with
  | none => none
  | some number =>
      if Domain.ordinals.has number then none
      else some ("ordinal must be in [-5, 5] without 0, got " ++ Digits.text number)

def ofEntries (entries : List (String × Value)) : Checked DayEntry :=
  DayEntry.mk <$> Value.optional "ordinal" none
      (fun value => (value.orNull Value.integer).refusing ordinalComplaint?) entries
    <*> Value.required "weekday" (Value.listed Weekday.ofCode?) entries

def ofValue (value : Value) : Checked DayEntry := value.entries.andThen ofEntries

end DayEntry

namespace Ending

/-- The last date of a rule needs a zone, and loses the fraction of its second. -/
def lastDate (value : Value) : Checked (Option Moment) :=
  (value.orNull Value.dateTime).andThen fun
    | none => .good none
    | some (.naive _) => .fail (.refused "until must be timezone-aware")
    | some (.aware moment) => .good (some moment.truncate)

def ofPair (count : Option Int) (date : Option Moment) : Checked Ending :=
  match count, date with
  | none, none => .good .never
  | some count, none => .good (.afterCount count)
  | none, some date => .good (.afterDate date)
  | some _, some _ =>
      .fail (.refused "a rule cannot end both after a count and after a date")

def ofEntries (entries : List (String × Value)) : Checked Ending :=
  (Prod.mk <$> Value.optional "count" none (Value.orNull (Value.integerFrom 1)) entries
    <*> Value.optional "until" none lastDate entries).andThen fun pair => ofPair pair.1 pair.2

def ofValue (value : Value) : Checked Ending := value.entries.andThen ofEntries

end Ending

def Value.month (value : Value) : Checked Int :=
  match value.integer with
  | .good number =>
      if Part.month.domain.has number then .good number
      else if Value.isSmall number then .fail .notListed
      else .fail .oversizedInteger
  | .bad _ => .fail .notListed

def Part.complaint? (part : Part) (numbers : List Int) : Option String :=
  (numbers.find? fun number => !part.domain.has number).map fun number =>
    part.field ++ " value " ++ Digits.text number ++ " outside [" ++
      Digits.text part.domain.least ++ ", " ++ Digits.text part.domain.greatest ++ "]" ++
      if part.domain.zero then "" else " without 0"

def Part.numbers (part : Part) (entries : List (String × Value)) : Checked (List Int) :=
  match part with
  | .month => Value.optional part.field [] (Value.listOf Value.month) entries
  | part =>
      Value.optional part.field []
        (fun value => (Value.listOf Value.integer value).refusing part.complaint?) entries

namespace Rule

/-- A rule from the entries of an object.  Entries that no rule has are ignored. -/
def ofEntries (entries : List (String × Value)) : Checked Rule :=
  Rule.mk <$> Value.required "frequency" (Value.listed Frequency.ofName?) entries
    <*> Value.optional "interval" 1 (Value.integerFrom 1) entries
    <*> Value.optional "end" .never Ending.ofValue entries
    <*> Part.second.numbers entries
    <*> Part.minute.numbers entries
    <*> Part.hour.numbers entries
    <*> Value.optional "weekdays" [] (Value.listOf DayEntry.ofValue) entries
    <*> Part.monthDay.numbers entries
    <*> Part.yearDay.numbers entries
    <*> Part.week.numbers entries
    <*> Part.month.numbers entries
    <*> Part.position.numbers entries

def ofValue (value : Value) : Checked Rule := value.entries.andThen ofEntries

def summaryList (rule : Rule) (part : Part) : Value :=
  if rule.restricts part then
    match part with
    | .weekday => .list (rule.weekdays.map fun entry => .text entry.text)
    | part => .list ((rule.numbers part).map .int)
  else .null

def summaryParts : List (String × Part) :=
  [("byday", .weekday), ("bymonthday", .monthDay), ("byyearday", .yearDay), ("byweekno", .week),
    ("bymonth", .month), ("bysetpos", .position), ("byhour", .hour), ("byminute", .minute),
    ("bysecond", .second)]

def summary (rule : Rule) : List (String × Value) :=
  [("frequency", .text rule.frequency.name), ("interval", .int rule.interval),
    ("count", match rule.ending.count? with
      | some count => .int count
      | none => .null),
    ("until", match rule.ending.date? with
      | some date => .date (.aware date)
      | none => .null)] ++
    summaryParts.map fun entry => (entry.1, rule.summaryList entry.2)

end Rule

end Recurrence
