import Recurrence.DateParts
import Recurrence.Value.Literal
import Recurrence.Zone.Directory

namespace Recurrence

/-! Why a text is not a rule.

A `RuleFault` is the cause; a `RuleError` adds the text that was read, the position of the fault in it
and the key and fragment at fault.  The wording of every cause is in `RuleFault.reason`.
-/

inductive RuleFault
  /-- The value read is no text but has the named type. -/
  | notText (typeName : String)
  | empty
  | tooLong (limit : Int)
  | notAscii
  | controlCharacter
  /-- A content line does not begin with the name of the property. -/
  | otherProperty
  | missingEquals
  | frequencyNotFirst
  | duplicatePart (key : String)
  | unknownPart (key : String)
  | countWithUntil
  /-- A frequency that is known but never generated. -/
  | unsupportedFrequency (text : String)
  | unknownFrequency (text : String)
  | badValue (key fragment : String)
  | zoneWithoutColon
  | unknownZone (name : String)
  | impossibleDate (parts : DateParts) (fault : DateFault)
deriving DecidableEq, Repr

/-- The three kinds of faults: of the form, of a value, and of what is known but not supported. -/
inductive RuleFault.Kind
  | grammar
  | value
  | unsupported
deriving DecidableEq, Repr

namespace RuleFault

def kind : RuleFault → Kind
  | notText _ | empty | tooLong _ | notAscii | controlCharacter | otherProperty | missingEquals
  | frequencyNotFirst | duplicatePart _ | unknownPart _ | countWithUntil => .grammar
  | unsupportedFrequency _ => .unsupported
  | unknownFrequency _ | badValue _ _ | zoneWithoutColon | unknownZone _ | impossibleDate _ _ =>
      .value

def reason : RuleFault → String
  | notText typeName => "rule must be a string, got " ++ typeName
  | empty => "rule cannot be empty"
  | tooLong limit => "rule exceeds maximum length of " ++ Digits.text limit ++ " characters"
  | notAscii => "rule must be ASCII"
  | controlCharacter => "rule contains control characters"
  | otherProperty => "content line does not start with RRULE:"
  | missingEquals => "rule part is missing '='"
  | frequencyNotFirst => "rule must start with FREQ"
  | duplicatePart key => "duplicate rule part '" ++ key ++ "'"
  | unknownPart key => "unknown rule part '" ++ key ++ "'"
  | countWithUntil => "COUNT and UNTIL are mutually exclusive"
  | unsupportedFrequency text => "frequency " ++ text ++ " is not supported"
  | unknownFrequency text => "invalid frequency '" ++ text ++ "'"
  | badValue key fragment => "invalid " ++ key ++ " value '" ++ fragment ++ "'"
  | zoneWithoutColon => "TZID is missing ':'"
  | unknownZone name => Zone.unknownComplaint name
  | impossibleDate parts fault => parts.complaint fault

end RuleFault

structure RuleError where
  subject : String
  fault : RuleFault
  position : Option Nat
  key : Option String
  fragment : Option String
deriving DecidableEq, Repr

def ruleMessage (reason : String) (position : Option Int) : String :=
  match position with
  | none => "Invalid recurrence rule: " ++ reason
  | some index =>
      "Invalid recurrence rule: " ++ reason ++ " (at position " ++ Digits.text index ++ ")"

def RuleError.message (error : RuleError) : String :=
  ruleMessage error.fault.reason (error.position.map Int.ofNat)

/-- How reading a rule can fail.

* `rule`: by a fault of the text.
* `outOfRange`: because a date that it names does not lie in the calendar once its zone is known.
* `outOfText`: because a character behind the end of the text was asked for.
* `unwritten`: because the message about a fault cannot be written. -/
inductive ParseFailure
  | rule (error : RuleError)
  | outOfRange
  | outOfText
  | unwritten (fault : Value.WritingFault)
deriving DecidableEq, Repr

end Recurrence
