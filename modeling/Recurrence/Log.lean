import Recurrence.Letters
import Recurrence.Report

namespace Recurrence

/-! Log records and their levels.

A level that is given by name is looked up without regard to case; `Level.resolve` answers with the
number of `info` for every name that it does not know.
-/

inductive Level
  | debug
  | info
  | warning
  | error
  | critical
deriving DecidableEq, Repr

namespace Level

def all : List Level := [debug, info, warning, error, critical]

def name : Level → String
  | debug => "DEBUG"
  | info => "INFO"
  | warning => "WARNING"
  | error => "ERROR"
  | critical => "CRITICAL"

def number : Level → Nat
  | debug => 10
  | info => 20
  | warning => 30
  | error => 40
  | critical => 50

def ofName? (text : String) : Option Level := all.find? fun level => level.name == text

def otherNames : List (String × Nat) := [("FATAL", 50), ("WARN", 30), ("NOTSET", 0)]

def numberOf? (text : String) : Option Nat :=
  match ofName? text with
  | some level => some level.number
  | none => otherNames.lookup text

/-- The number for a level that is given as a number or by name; numbers are taken as they are. -/
def resolve : Value → Value
  | .int value => .int value
  | .bool value => .bool value
  | value => .int (((numberOf? (Letters.capitals value.display)).getD info.number : Nat) : Int)

theorem ofName?_name (level : Level) : ofName? level.name = some level := by
  cases level <;> decide

end Level

structure LogRecord where
  level : Level
  message : String
deriving DecidableEq, Repr

def passing (threshold : Nat) (records : List LogRecord) : List LogRecord :=
  records.filter fun record => threshold ≤ record.level.number

/-- A message up to its first colon with a blank after it. -/
def heading (message : String) : String := String.ofList (go message.toList)
where
  go : List Char → List Char
    | ':' :: ' ' :: _ => []
    | c :: rest => c :: go rest
    | [] => []

end Recurrence
