import Recurrence.Checked
import Recurrence.DateText
import Recurrence.Log
import Recurrence.Rule.Printer
import Recurrence.Rule.Reader

namespace Recurrence

/-! Rules and dates in calendar components.

A component is a list of lines, each a property with a name, parameters and a value.  The value of a
rule property is a list of assignments, which are written in an order of their own;
`RecurProperty.text` gives that order, and integers without leading zeros.
-/

structure Property where
  name : String
  parameters : List (String × String)
  value : String
deriving DecidableEq, Repr

namespace Property

/-- Cuts a text at the first separator; a text without one is all name. -/
def halves (separator : Char) (chars : List Char) : List Char × List Char :=
  (cutAt? separator chars).getD (chars, [])

def parameter (chars : List Char) : String × String :=
  let pair := halves '=' chars
  (Letters.capitals (String.ofList pair.1), String.ofList pair.2)

def ofLine (line : List Char) : Property :=
  let sides := halves ':' line
  match split ';' sides.1 with
  | [] => ⟨"", [], String.ofList sides.2⟩
  | name :: parameters =>
      ⟨Letters.capitals (String.ofList name), parameters.map parameter, String.ofList sides.2⟩

/-- Joins lines that are continued: a break before a blank or a tab is none. -/
def unfold : List Char → List Char
  | '\r' :: '\n' :: c :: rest =>
      if c = ' ' ∨ c = '\t' then unfold rest else '\r' :: '\n' :: unfold (c :: rest)
  | '\n' :: c :: rest =>
      if c = ' ' ∨ c = '\t' then unfold rest else '\n' :: unfold (c :: rest)
  | c :: rest => c :: unfold rest
  | [] => []
  termination_by chars => chars.length

def named (component name : String) : List Property :=
  let lines := split '\n' ((unfold component.toList).filter fun c => c != '\r')
  (lines.map ofLine).filter fun property => property.name == name

end Property

/-- The value of a rule property: keys and the values assigned to them. -/
structure RecurProperty where
  assignments : List (String × List (List Char))
deriving DecidableEq, Repr

namespace RecurProperty

/-- The order in which assignments are written; keys not listed follow. -/
def keyOrder : List String :=
  ["RSCALE", "FREQ", "UNTIL", "COUNT", "INTERVAL", "BYSECOND", "BYMINUTE", "BYHOUR", "BYDAY",
    "BYWEEKDAY", "BYMONTHDAY", "BYYEARDAY", "BYWEEKNO", "BYMONTH", "BYSETPOS", "WKST", "SKIP"]

def integerKeys : List String :=
  ["COUNT", "INTERVAL", "BYSECOND", "BYMINUTE", "BYHOUR", "BYMONTHDAY", "BYYEARDAY", "BYWEEKNO",
    "BYMONTH", "BYSETPOS"]

def capitalKeys : List String := ["FREQ", "BYDAY", "WKST"]

def normalize (key : String) (value : List Char) : List Char :=
  if integerKeys.contains key then
    match Numeral.readSigned value with
    | some number => Digits.ofInt number 0
    | none => value
  else if capitalKeys.contains key then value.flatMap Letters.capital
  else value

/-- Adds an assignment; a later one for the same key replaces the earlier. -/
def insert (property : RecurProperty) (key : String) (values : List (List Char)) :
    RecurProperty where
  assignments := property.assignments.filter (fun entry => entry.1 != key) ++ [(key, values)]

/-- Reads a piece, which is ignored unless it holds exactly one equals sign. -/
def readPiece (property : RecurProperty) (piece : List Char) : RecurProperty :=
  match split '=' piece with
  | [key, values] =>
      let key := Letters.capitals (String.ofList key)
      property.insert key ((split ',' values).map (normalize key))
  | _ => property

def ofText (text : String) : RecurProperty := (split ';' text.toList).foldl readPiece ⟨[]⟩

def orderedKeys (property : RecurProperty) : List String :=
  let keys := property.assignments.map Prod.fst
  keyOrder.filter keys.contains ++
    (keys.filter fun key => !keyOrder.contains key).mergeSort fun first second =>
      decide (first ≤ second)

def pieces (property : RecurProperty) : List (List Char) :=
  property.orderedKeys.map fun key =>
    RuleText.assigned key (join ',' ((property.assignments.lookup key).getD []))

def text (property : RecurProperty) : String := String.ofList (join ';' property.pieces)

end RecurProperty

namespace ICalendar

section

variable [Zone.Directory]

/-- The date of a start property: a date without a time is midnight, and a zone may be named. -/
def dateOf? (property : Property) : Option DateTime :=
  match DateText.lenient? property.value with
  | none => none
  | some ⟨time, some _⟩ => some (.aware ⟨time, 0, .utc⟩)
  | some ⟨time, none⟩ =>
      match (property.parameters.lookup "TZID").bind Zone.resolve? with
      | none => some (.naive time)
      | some zone => (zone.localize time).map .aware

def startOf? (component : String) : Option DateTime :=
  (Property.named component "DTSTART").head?.bind dateOf?

end

/-- Reads a date that a component holds: naive ones belong to the calendar's zone. -/
def moment (calendar : Calendar) : DateTime → Option Moment
  | .naive time => calendar.localize (.naive time)
  | .aware moment => some moment

def noDateComplaint (value : Value) : String := "Not a date or datetime: " ++ value.written

def ruleTexts (component : String) : List String :=
  (Property.named component "RRULE").map fun property => (RecurProperty.ofText property.value).text

def severalRules (count : Nat) : LogRecord :=
  ⟨.warning, "Component has " ++ Digits.text count ++ " RRULE properties, reading the first"⟩

def choiceLog (texts : List String) : List LogRecord :=
  if 1 < texts.length then [severalRules texts.length] else []

def firstRule [Zone.Directory] (calendar : Calendar) (texts : List String) :
    Except ParseFailure (Option Rule) :=
  match texts with
  | [] => .ok none
  | first :: _ => (RuleText.read calendar first).map some

def inUtc (calendar : Calendar) (rule : Rule) : Option Rule :=
  match rule.ending with
  | .afterDate date => do
      let shown ← calendar.localize (.aware date)
      let utc ← Zone.utc.at shown.instant
      return { rule with ending := .afterDate utc.truncate }
  | _ => some rule

def ofRule [Zone.Directory] (calendar : Calendar) (rule : Rule) : Option RecurProperty := do
  let rule ← inUtc calendar rule
  let text ← RuleText.write calendar rule
  return .ofText text

end ICalendar

/-- Reads a date-time from a text in the lenient form, in UTC unless it has an offset; other dates are
taken as they are.  The error is a complaint. -/
def Value.anyDateTime : Value → Except String DateTime
  | .date value => .ok value
  | .text value =>
      match DateText.lenient? value with
      | some ⟨time, none⟩ => .ok (.aware ⟨time, 0, .utc⟩)
      | some ⟨time, some offset⟩ => .ok (.aware ⟨time, offset * 1000000, .fixed (offset * 1000000) none 0⟩)
      | none => .error ("Invalid datetime format: " ++ value)
  | value => .error ("Invalid datetime format: " ++ value.display)

end Recurrence
