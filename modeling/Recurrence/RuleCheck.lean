import Recurrence.Occurrences
import Recurrence.Rescue
import Recurrence.Rule.Reader

namespace Recurrence

/-! Rule texts from users: a verdict with a message, or a list that is empty when anything is wrong. -/

def RuleError.rejection (error : RuleError) : LogRecord :=
  ⟨.debug, "Rejected rule: " ++ error.report.fullText⟩

def parseLog : Except ParseFailure α → List LogRecord
  | .error (.rule error) => [error.rejection]
  | _ => []

namespace RuleCheck

variable [Zone.Directory]

def endlessComplaint : String := "RRULE must have COUNT or UNTIL to prevent infinite recurrence"

/-- Whether a value is the text of a rule, and of one that ends if that is required; with a message if
not.  None when reading the text breaks off. -/
def validate (reach : Nat) (calendar : Calendar) (value : Value) (requireEnd : Bool) :
    Option (Bool × Option String) :=
  match RuleText.readValue reach calendar RuleGuard.defaultLimit value with
  | .error (.rule error) => some (false, some error.message)
  | .error _ => none
  | .ok rule =>
      if requireEnd && rule.ending.isNever then some (false, some endlessComplaint)
      else some (true, none)

def defaultLimit : Int := 1000

def rangeTrouble (fault : RangeFault) : Trouble := .foreign "OverflowError" fault.text

def expansionTrouble : ExpansionFailure → Trouble
  | .refused error => .report error.report
  | .broken (.outOfRange fault) => rangeTrouble fault
  | .broken (.failed fault) => .foreign "ValueError" fault.text

def writingTrouble : Value.WritingFault → Trouble
  | .tooManyDigits =>
      .foreign "ValueError" <| "Exceeds the limit (" ++ Digits.text Digits.greatestLength ++
        " digits) for integer string conversion; use sys.set_int_max_str_digits() to increase the limit"
  | .tooDeep =>
      .foreign "RecursionError" "maximum recursion depth exceeded while getting the repr of an object"

def parseTrouble : ParseFailure → Trouble
  | .rule error => .report error.report
  | .outOfRange => rangeTrouble .date
  | .outOfText => .foreign "IndexError" "string index out of range"
  | .unwritten fault => writingTrouble fault

def list (reach : Nat) (calendar : Calendar) (value limit : Value) (start : DateTime)
    (finish : Option DateTime) : Except Trouble (List Moment) × List LogRecord :=
  let parsed := RuleText.readValue reach calendar RuleGuard.defaultLimit value
  match parsed with
  | .error failure => (.error (parseTrouble failure), parseLog parsed)
  | .ok rule =>
      match limit.limit with
      | .error typeName => (.error (.foreign "TypeError" (limitComplaint typeName)), [])
      | .ok limit =>
          let expansion := Expansion.occurrences .initial rule start finish limit calendar
          (expansion.result.mapError expansionTrouble, expansion.log)

/-- Lists the occurrences of a rule text, none if anything is wrong. -/
def expand (reach : Nat) (calendar : Calendar) (value limit : Value) (start : DateTime)
    (finish : Option DateTime) : List Moment × List LogRecord :=
  let listed := list reach calendar value limit start finish
  let rescued := rescue "expand_occurrences" (some "Error expanding RRULE") [] listed.1
  (rescued.1, listed.2 ++ rescued.2)

end RuleCheck

end Recurrence
