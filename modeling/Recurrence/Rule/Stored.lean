import Recurrence.Report
import Recurrence.Rule.Model
import Recurrence.Rule.Printer
import Recurrence.Rule.Reader

namespace Recurrence

/-! Rules that are stored as their texts, and rules derived from other rules.

A stored rule is read in the default calendar.  It may be given as an object too, and is written as a
text again.  A rule never changes in place: `Rule.updated` makes another one and does not check it, and
an assignment to a field is refused.
-/

namespace Rule

/-- Reads a rule from its text or from an object; none when reading the text breaks off, as it does at a
date that the calendar cannot express. -/
def ofStored? [Zone.Directory] : Value → Option (Checked Rule)
  | .text text =>
      match RuleText.read {} text with
      | .ok rule => some (.good rule)
      | .error (.rule error) => some (.fail (.refused error.report.text))
      | .error _ => none
  | value => some (ofValue value)

def stored? [Zone.Directory] (name : String) (entries : List (String × Value)) : Option (Checked Rule) :=
  match entries.lookup name with
  | none => some (.bad [⟨[.field name], .missing⟩])
  | some value => (ofStored? value).map fun checked => checked.within (.field name)

def storedText? [Zone.Directory] (rule : Rule) : Option String := RuleText.write {} rule

/-- The rule with other numbers for some fields, which are not checked.  Fields that hold no numbers
stay as they are. -/
def updated (rule : Rule) (field : String) (value : Value) : Rule :=
  match value with
  | .int interval => if field = "interval" then { rule with interval } else rule
  | .list items =>
      match Part.all.find? fun part => part.field == field with
      | none => rule
      | some part =>
          rule.withNumbers part <| items.filterMap fun
            | .int number => some number
            | _ => none
  | _ => rule

def assignmentIssue (field : String) : Issue := ⟨[.field field], .frozen⟩

end Rule

end Recurrence
