import Recurrence.Rule.Error
import Recurrence.Value.Literal

namespace Recurrence

/-! Errors as callers see them: a kind, a message, a code, and details by name.

The kinds form a tree, and `ErrorKind.lineage` is the path to its root.  A report is made from the
cause of an error, and the wording of every message is here or beside the cause.
-/

inductive ErrorKind
  | general
  | ruleParse
  | ruleGrammar
  | ruleValue
  | unsupportedRule
  | generatorConstruction
  | calendar
  | invalidDate
  | unknownTimeZone
  | configuration
  | invalidConfig
deriving DecidableEq, Repr

namespace ErrorKind

def all : List ErrorKind :=
  [general, ruleParse, ruleGrammar, ruleValue, unsupportedRule, generatorConstruction, calendar,
    invalidDate, unknownTimeZone, configuration, invalidConfig]

def name : ErrorKind → String
  | general => "ChronosRRuleError"
  | ruleParse => "RuleParseError"
  | ruleGrammar => "RuleGrammarError"
  | ruleValue => "RuleValueError"
  | unsupportedRule => "UnsupportedRuleError"
  | generatorConstruction => "GeneratorConstructionError"
  | calendar => "CalendarError"
  | invalidDate => "InvalidDateError"
  | unknownTimeZone => "UnknownTimeZoneError"
  | configuration => "ConfigurationError"
  | invalidConfig => "InvalidConfigError"

def ofName? (text : String) : Option ErrorKind := all.find? fun kind => kind.name == text

def aboutRule : ErrorKind → Bool
  | ruleParse | ruleGrammar | ruleValue | unsupportedRule => true
  | _ => false

/-- The kinds from this one to the root.  Errors about rule texts are also errors about values. -/
def lineage : ErrorKind → List String
  | general => [general.name]
  | ruleParse => [ruleParse.name, general.name, "ValueError"]
  | ruleGrammar => [ruleGrammar.name, ruleParse.name, general.name, "ValueError"]
  | ruleValue => [ruleValue.name, ruleParse.name, general.name, "ValueError"]
  | unsupportedRule => [unsupportedRule.name, ruleParse.name, general.name, "ValueError"]
  | generatorConstruction => [generatorConstruction.name, general.name]
  | calendar => [calendar.name, general.name]
  | invalidDate => [invalidDate.name, calendar.name, general.name]
  | unknownTimeZone => [unknownTimeZone.name, calendar.name, general.name]
  | configuration => [configuration.name, general.name]
  | invalidConfig => [invalidConfig.name, configuration.name, general.name]

end ErrorKind

/-- Whether a value counts as given: neither null nor false nor zero nor empty. -/
def Value.isGiven : Value → Bool
  | .null | .bool false => false
  | .int value => value != 0
  | .double value => !value.isZero
  | .text value => !value.isEmpty
  | .list items => !items.isEmpty
  | .object entries => !entries.isEmpty
  | .bool true | .date _ => true

structure Report where
  kind : ErrorKind
  message : Value
  code : Value
  details : Value
deriving Repr

namespace Report

/-- A report with the given parts; a missing code is the name of the kind. -/
def of (kind : ErrorKind) (message code details : Value) : Report where
  kind := kind
  message := message
  code := if code.isGiven then code else .text kind.name
  details := if details.isGiven then details else .object []

def unlessNull (name : String) : Value → List (String × Value)
  | .null => []
  | value => [(name, value)]

def remarked (message opening : String) (remark : Value) (closing : String) : String :=
  if remark.isGiven then message ++ opening ++ remark.display ++ closing else message

def rule (kind : ErrorKind) (subject reason position key fragment code : Value) : Report :=
  let message := "Invalid recurrence rule: " ++ reason.display
  let place := match position with
    | .null => ""
    | value => " (at position " ++ value.display ++ ")"
  of kind (.text (message ++ place)) code <| .object <|
    [("rrule", subject), ("reason", reason)] ++ unlessNull "position" position ++
      unlessNull "key" key ++ unlessNull "fragment" fragment

def ruleCode : ErrorKind → String
  | .unsupportedRule => "UNSUPPORTED_RRULE"
  | _ => "INVALID_RRULE"

def generator (name frequency reason : Value) : Report :=
  of .generatorConstruction
    (.text (remarked (name.display ++ " cannot generate " ++ frequency.display ++ " rules") ": "
      reason ""))
    (.text "GENERATOR_UNAVAILABLE")
    (.object [("generator", name), ("frequency", frequency), ("reason", reason)])

def invalidDate (components reason : Value) : Report :=
  of .invalidDate
    (.text (remarked ("Invalid date components: " ++ components.display) " (" reason ")"))
    (.text "INVALID_DATE")
    (.object [("components", components), ("reason", reason)])

def unknownZone (name : Value) : Report :=
  of .unknownTimeZone (.text (Zone.unknownComplaint name.display)) (.text "UNKNOWN_TIMEZONE")
    (.object [("timezone", name)])

def invalidConfig (reason path : Value) : Report :=
  of .invalidConfig (.text ("Invalid configuration: " ++ reason.display)) .null <| .object <|
    ("reason", reason) :: if path.isGiven then [("config_path", path)] else []

def text (report : Report) : String := report.code.display ++ ": " ++ report.message.display

def fullText (report : Report) : String :=
  report.text ++ " | Details: " ++ report.details.written

end Report

def RuleFault.Kind.errorKind : RuleFault.Kind → ErrorKind
  | grammar => .ruleGrammar
  | value => .ruleValue
  | unsupported => .unsupportedRule

namespace Value

def ofText? : Option String → Value
  | some value => .text value
  | none => .null

def ofInt? : Option Int → Value
  | some value => .int value
  | none => .null

end Value

def RuleError.report (error : RuleError) : Report :=
  let kind := error.fault.kind.errorKind
  .rule kind (.text error.subject) (.text error.fault.reason)
    (.ofInt? (error.position.map Int.ofNat)) (.ofText? error.key) (.ofText? error.fragment)
    (.text (Report.ruleCode kind))

def DateParts.components (parts : DateParts) : Value :=
  .object [("year", .int parts.year), ("month", .int parts.month), ("day", .int parts.day),
    ("hour", .int parts.hour), ("minute", .int parts.minute), ("second", .int parts.second)]

def DateParts.report (parts : DateParts) (fault : DateFault) : Report :=
  .invalidDate parts.components (.text fault.reason)

end Recurrence
