import Recurrence.Occurrences
import Recurrence.RuleCheck
import Recurrence.Settings

namespace Recurrence

/-! Work under settings that are kept in a document and overridden by the environment.

A session holds the settings in force, the level of the log, and what it finds outside: the document
and the variables of the environment.  The level follows the settings: every change of them sets it.
-/

/-- What is found of the document.

* `homeless`: there is no home for it to lie in.
* `hidden`: whether it is there cannot be told.
* `closed`: what is there cannot be opened, as a directory cannot.
* `garbled`: what is there is no text. -/
inductive SettingsFile
  | homeless
  | hidden
  | absent
  | closed
  | garbled
  | document (text : String)
deriving DecidableEq, Repr

structure Session where
  settings : Settings := {}
  level : Option Level := none
  file : SettingsFile := .absent
  environment : List (String × String) := []
  /-- How many steps into the parts of a value can be under way at once. -/
  reach : Nat
deriving DecidableEq, Repr

/-- Why a session is not loaded: the document has no home or is hidden, or it is too deep for its reader. -/
inductive LoadFault
  | homeless
  | hidden
  | tooDeep
deriving DecidableEq, Repr

namespace Session

/-- The number of the least level that is logged; before any level is set it is that of `info`. -/
def threshold (session : Session) : Nat := (session.level.getD .info).number

def logged (session : Session) (records : List LogRecord) : List LogRecord :=
  passing session.threshold records

def applyLevel (session : Session) : Session :=
  { session with level := some session.settings.logLevel }

def update [Zone.Directory] (session : Session) (changes : List (String × Value)) :
    Except (List Issue) Session :=
  match session.settings.changed changes with
  | .bad issues => .error issues
  | .good settings => .ok (applyLevel { session with settings })

/-- Reads the settings from the document, which lies at a path; they are the default ones when there is
no good document.  Only what is wrong with a document once it is there to be opened stands back for them,
and not that it is too deep. -/
def readFile [Zone.Directory] (session : Session) (path : String) :
    Except LoadFault (Session × List LogRecord) :=
  let fresh : Session := { session with settings := {} }
  let failed := (fresh, session.logged [⟨.error, "Error loading config file"⟩])
  match session.file with
  | .homeless => .error .homeless
  | .hidden => .error .hidden
  | .absent => .ok (fresh, [])
  | .closed | .garbled => .ok failed
  | .document text =>
      match Settings.ofDocument session.reach text with
      | .error .tooDeep => .error .tooDeep
      | .error .unusable => .ok failed
      | .ok settings =>
          .ok ({ session with settings },
            session.logged [⟨.info, "Loaded configuration from " ++ path⟩])

def overrides : List (String × String) :=
  [("CHRONOS_RRULE_TIMEZONE", "timezone"), ("CHRONOS_RRULE_FIRST_WEEKDAY", "first_weekday"),
    ("CHRONOS_RRULE_DEFAULT_LIMIT", "default_limit"), ("CHRONOS_RRULE_LOG_LEVEL", "log_level")]

/-- Sets an entry to the value of a variable; an empty one counts as absent. -/
def override [Zone.Directory] (session : Session) (name entry : String) : Session × List LogRecord :=
  match session.environment.lookup name with
  | none => (session, [])
  | some value =>
      if value.isEmpty then (session, [])
      else
        match session.update [(entry, .text value)] with
        | .ok updated =>
            (updated, updated.logged [⟨.info, "Applied " ++ name ++ " from environment"⟩])
        | .error _ =>
            (session, session.logged [⟨.error, "Invalid environment variable " ++ name⟩])

def overrideAll [Zone.Directory] : Session → List (String × String) → Session × List LogRecord
  | session, [] => (session, [])
  | session, (name, entry) :: rest =>
      let first := session.override name entry
      let later := overrideAll first.1 rest
      (later.1, first.2 ++ later.2)

def load [Zone.Directory] (session : Session) (path : String) :
    Except LoadFault (Session × List LogRecord) := do
  let read ← session.readFile path
  let overridden := overrideAll read.1 overrides
  return (overridden.1.applyLevel, read.2 ++ overridden.2)

/-- Adds variables to the environment, in place of those with the same names. -/
def withVariables (session : Session) (added : List (String × String)) : Session :=
  let isAdded (name : String) : Bool := added.any fun pair => pair.1 == name
  { session with
    environment := added ++ session.environment.filter fun known => !isAdded known.1 }

/-- Saves the settings; none when the document cannot be opened. -/
def save (session : Session) : Option (Session × List LogRecord) :=
  match session.file with
  | .homeless | .hidden | .closed => none
  | _ => some ({ session with file := .document session.settings.document },
      session.logged [⟨.info, "Configuration saved"⟩])

def readRule [Zone.Directory] (session : Session) (calendar : Calendar) (limit : Int) (value : Value) :
    Except ParseFailure Rule × List LogRecord :=
  let read := RuleText.readValue session.reach calendar limit value
  (read, session.logged (parseLog read))

/-- The occurrences of a rule in a calendar, limited by the settings unless a limit is given. -/
def occurrences (session : Session) (rule : Rule) (start : DateTime) (finish : Option DateTime)
    (limit : Option Int) (calendar : Calendar) : Expansion :=
  let expansion := Expansion.occurrences .initial rule start finish
    (limit.getD session.settings.defaultLimit) calendar
  { expansion with log := session.logged expansion.log }

end Session

end Recurrence
