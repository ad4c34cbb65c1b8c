import Recurrence.Value.Literal

namespace Recurrence

/-! Rule texts with blanks to fill in. -/

inductive TemplatePart
  | words (text : String)
  | slot (name : String)
deriving DecidableEq, Repr

structure Template where
  name : String
  parts : List TemplatePart
deriving DecidableEq, Repr

namespace Template

def all : List Template :=
  [⟨"DAILY_WEEKDAYS", [.words "FREQ=DAILY;BYDAY=MO,TU,WE,TH,FR"]⟩,
    ⟨"DAILY_FOREVER", [.words "FREQ=DAILY"]⟩,
    ⟨"WEEKLY_ON_DAY", [.words "FREQ=WEEKLY;BYDAY=", .slot "day"]⟩,
    ⟨"WEEKLY_MULTIPLE_DAYS", [.words "FREQ=WEEKLY;BYDAY=", .slot "days"]⟩,
    ⟨"BIWEEKLY_ON_DAY", [.words "FREQ=WEEKLY;INTERVAL=2;BYDAY=", .slot "day"]⟩,
    ⟨"MONTHLY_ON_DATE", [.words "FREQ=MONTHLY;BYMONTHDAY=", .slot "day"]⟩,
    ⟨"MONTHLY_LAST_DAY", [.words "FREQ=MONTHLY;BYMONTHDAY=-1"]⟩,
    ⟨"MONTHLY_FIRST_WEEKDAY", [.words "FREQ=MONTHLY;BYDAY=1", .slot "day"]⟩,
    ⟨"MONTHLY_LAST_WORKDAY", [.words "FREQ=MONTHLY;BYDAY=MO,TU,WE,TH,FR;BYSETPOS=-1"]⟩,
    ⟨"YEARLY_ON_DATE", [.words "FREQ=YEARLY"]⟩,
    ⟨"YEARLY_ON_MONTH_DAY",
      [.words "FREQ=YEARLY;BYMONTH=", .slot "month", .words ";BYMONTHDAY=", .slot "day"]⟩]

def ofName? (name : String) : Option Template := all.find? fun template => template.name == name

def TemplatePart.text : TemplatePart → String
  | .words text => text
  | .slot name => "\x7b" ++ name ++ "\x7d"

def text (template : Template) : String :=
  "".intercalate (template.parts.map TemplatePart.text)

/-- Fills the slots; the error names the first for which there is no value. -/
def fillParts (values : List (String × Value)) : List TemplatePart → Except String String
  | [] => .ok ""
  | .words text :: rest => (fillParts values rest).map fun filled => text ++ filled
  | .slot name :: rest =>
      match values.lookup name with
      | none => .error name
      | some value => (fillParts values rest).map fun filled => value.display ++ filled

def fill (template : Template) (values : List (String × Value)) : Except String String :=
  fillParts values template.parts

end Template

end Recurrence
