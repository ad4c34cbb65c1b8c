import Recurrence.Checked
import Recurrence.Calendar
import Recurrence.Log
import Recurrence.Rule.Guard
import Recurrence.Value.Document
import Recurrence.Value.Reader
import Recurrence.Zone.Directory

namespace Recurrence

/-! The settings of the engine: read from a document, changed, and written as a document.

Every change checks the whole of the settings that it would give, so settings are good at all times,
and a change that is refused changes nothing.
-/

structure Settings where
  timezone : String := "UTC"
  firstWeekday : Weekday := .monday
  defaultLimit : Int := 366
  maxRuleLength : Int := RuleGuard.defaultLimit
  logLevel : Level := .info
deriving DecidableEq, Repr

namespace Settings

def zoneName [Zone.Directory] (value : Value) : Checked String :=
  value.plainText.refusing fun name =>
    if (Zone.resolve? name).isSome then none else some (Zone.unknownComplaint name)

def level (value : Value) : Checked Level :=
  value.plainText.andThen fun name =>
    let name := Letters.capitals name
    match Level.ofName? name with
    | some level => .good level
    | none => .fail (.refused ("unknown log level '" ++ name ++ "'"))

def ofEntries [Zone.Directory] (entries : List (String × Value)) : Checked Settings :=
  Settings.mk <$> Value.optional "timezone" "UTC" zoneName entries
    <*> Value.optional "first_weekday" .monday (Value.listed Weekday.ofCode?) entries
    <*> Value.optional "default_limit" 366 (Value.integerFrom 0) entries
    <*> Value.optional "max_rule_length" RuleGuard.defaultLimit (Value.integerFrom 16) entries
    <*> Value.optional "log_level" .info level entries

def entries (settings : Settings) : List (String × Value) :=
  [("timezone", .text settings.timezone), ("first_weekday", .text settings.firstWeekday.code),
    ("default_limit", .int settings.defaultLimit),
    ("max_rule_length", .int settings.maxRuleLength),
    ("log_level", .text settings.logLevel.name)]

def changed [Zone.Directory] (settings : Settings) (changes : List (String × Value)) : Checked Settings :=
  ofEntries (changes.foldl (fun entries change => Value.setEntry entries change.1 change.2)
    settings.entries)

/-- Settings from the text of a document, which must be an object with good entries. -/
def ofDocument [Zone.Directory] (reach : Nat) (document : String) : Except Value.DocumentFault Settings :=
  match Value.ofDocument reach document with
  | .error fault => .error fault
  | .ok (.object entries) =>
      match ofEntries entries with
      | .good settings => .ok settings
      | .bad _ => .error .unusable
  | .ok _ => .error .unusable

def document (settings : Settings) : String := (Value.object settings.entries).document

/-- The calendar of the settings, in another zone if one is named.  The error is an unknown name. -/
def calendar [Zone.Directory] (settings : Settings) (timezone : Option String) : Except String Calendar :=
  let name := match timezone with
    | some name => if name.isEmpty then settings.timezone else name
    | none => settings.timezone
  match Zone.resolve? name with
  | some zone => .ok ⟨zone, settings.firstWeekday⟩
  | none => .error name

end Settings

end Recurrence
