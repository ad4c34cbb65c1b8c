import Recurrence.Report

namespace Recurrence

/-! Reports that are made from parts, with or without names.

Parts without names take the names of their places, so that `Report.ofParts` sees names only.
-/

/-- The names of a report's parts, in the order in which they may be given without names. -/
def ErrorKind.partNames : ErrorKind → List String
  | ruleParse | ruleGrammar | ruleValue | unsupportedRule =>
      ["rrule", "reason", "position", "key", "fragment", "error_code"]
  | generatorConstruction => ["generator", "frequency", "reason"]
  | invalidDate => ["components", "reason"]
  | unknownTimeZone => ["name"]
  | invalidConfig => ["reason", "config_path"]
  | general | calendar | configuration => ["message", "error_code", "details"]

def ErrorKind.orderedParts : ErrorKind → Nat
  | unsupportedRule => 2
  | kind => kind.partNames.length

def ErrorKind.requiredParts : ErrorKind → Nat
  | ruleParse | ruleGrammar | ruleValue | unsupportedRule | generatorConstruction => 2
  | _ => 1

def ErrorKind.nameParts (kind : ErrorKind) (ordered : List Value) (named : List (String × Value)) :
    List (String × Value) :=
  kind.partNames.zip ordered ++ named

/-- Whether a kind's report can be made from parts: each has a name of the kind's, none is given
twice, and none that is required is left out. -/
def ErrorKind.accepts (kind : ErrorKind) (ordered : List Value) (named : List (String × Value)) :
    Bool :=
  let names := (kind.nameParts ordered named).map fun part => part.1
  ordered.length ≤ kind.orderedParts && decide names.Nodup &&
    names.all (fun name => kind.partNames.contains name) &&
    (kind.partNames.take kind.requiredParts).all fun name => names.contains name

namespace Report

/-- The part with a name; parts that are not given are null. -/
def part (parts : List (String × Value)) (name : String) : Value :=
  (parts.lookup name).getD .null

def ofParts (kind : ErrorKind) (parts : List (String × Value)) : Report :=
  let part := part parts
  if kind.aboutRule then
    .rule kind (part "rrule") (part "reason") (part "position") (part "key") (part "fragment")
      ((parts.lookup "error_code").getD (.text (ruleCode kind)))
  else
    match kind with
    | .generatorConstruction => .generator (part "generator") (part "frequency") (part "reason")
    | .invalidDate => .invalidDate (part "components") (part "reason")
    | .unknownTimeZone => .unknownZone (part "name")
    | .invalidConfig => .invalidConfig (part "reason") (part "config_path")
    | kind => .of kind (part "message") (part "error_code") (part "details")

def keptParts (kind : ErrorKind) (parts : List (String × Value)) : List (String × Value) :=
  if kind.aboutRule then
    ["rrule", "reason", "position", "key", "fragment"].map fun name => (name, part parts name)
  else []

end Report

end Recurrence
