import Recurrence.Value
import Recurrence.Value.Numeral

namespace Recurrence

/-! Checking data field by field, with every fault reported and not only the first.

A `Checked` value is either good or a list of issues, each with its place in the data.  Combining two
of them keeps the issues of both, in order; `Checked.issues_seq` says so.
-/

inductive Step
  | field (name : String)
  | index (position : Nat)
deriving DecidableEq, Repr

/-- What can be wrong in one place. -/
inductive IssueCause
  | missing
  /-- The value is of no type that could be read as an integer. -/
  | noInteger
  | unreadableInteger
  /-- An integer of more digits than can be read, or a number with a fraction that is too great. -/
  | oversizedInteger
  | fraction
  | notFinite
  | tooSmall
  | notListed
  | noList
  | noObject
  | noText
  | unreadableDate
  | dateOutOfRange
  | noDate
  | frozen
  /-- A rule about values says no, in its own words. -/
  | refused (message : String)
deriving DecidableEq, Repr

structure Issue where
  place : List Step
  cause : IssueCause
deriving DecidableEq, Repr

def IssueCause.code : IssueCause → String
  | missing => "missing"
  | noInteger => "int_type"
  | unreadableInteger => "int_parsing"
  | oversizedInteger => "int_parsing_size"
  | fraction => "int_from_float"
  | notFinite => "finite_number"
  | tooSmall => "greater_than_equal"
  | notListed => "enum"
  | noList => "tuple_type"
  | noObject => "model_type"
  | noText => "string_type"
  | unreadableDate => "datetime_from_date_parsing"
  | dateOutOfRange => "datetime_parsing"
  | noDate => "datetime_type"
  | frozen => "frozen_instance"
  | refused _ => "value_error"

def IssueCause.message? : IssueCause → Option String
  | refused message => some ("Value error, " ++ message)
  | _ => none

inductive Checked (α : Type)
  | good (value : α)
  | bad (issues : List Issue)
deriving Repr

namespace Checked

def issues : Checked α → List Issue
  | good _ => []
  | bad issues => issues

def map (f : α → β) : Checked α → Checked β
  | good value => good (f value)
  | bad issues => bad issues

def apply (f : Checked (α → β)) (argument : Checked α) : Checked β :=
  match f, argument with
  | good f, good value => good (f value)
  | f, argument => bad (f.issues ++ argument.issues)

instance : Functor Checked := ⟨map, fun value checked => checked.map fun _ => value⟩

instance : Pure Checked := ⟨good⟩

instance : Seq Checked := ⟨fun f argument => f.apply (argument ())⟩

def fail (cause : IssueCause) : Checked α := bad [⟨[], cause⟩]

/-- Reports the issues one step further out. -/
def within (step : Step) : Checked α → Checked α
  | good value => good value
  | bad issues => bad (issues.map fun issue => { issue with place := step :: issue.place })

def refusing (checked : Checked α) (complaint? : α → Option String) : Checked α :=
  match checked with
  | bad issues => bad issues
  | good value =>
      match complaint? value with
      | none => good value
      | some message => fail (.refused message)

def andThen (checked : Checked α) (further : α → Checked β) : Checked β :=
  match checked with
  | good value => further value
  | bad issues => bad issues

def all (check : Value → Checked α) : Nat → List Value → Checked (List α)
  | _, [] => good []
  | position, item :: rest =>
      List.cons <$> within (.index position) (check item) <*> all check (position + 1) rest

theorem issues_seq (f : Checked (α → β)) (argument : Checked α) :
    (f <*> argument).issues = f.issues ++ argument.issues := by
  cases f <;> cases argument <;> simp [Seq.seq, apply, issues]

end Checked

namespace Value

/-- Whether an integer fits 64 binary digits, one of which is the sign. -/
def isSmall (value : Int) : Bool := -9223372036854775808 ≤ value && value ≤ 9223372036854775807

/-- The integer that a number with a fraction is.  It must lie strictly inside the integers that fit
64 binary digits, as those at the ends stand for others too. -/
def integerOfDouble (number : Double) : Checked Int :=
  match number.quotient?, number.integer? with
  | none, _ => .fail .notFinite
  | _, none => .fail .fraction
  | _, some value =>
      if -9223372036854775808 < value ∧ value < 9223372036854775808 then .good value
      else .fail .oversizedInteger

/-- Reads an integer: a number without a fraction, a truth value as 0 or 1, or the text of one. -/
def integer : Value → Checked Int
  | .int value => .good value
  | .bool value => .good (if value then 1 else 0)
  | .double value => integerOfDouble value
  | .text value =>
      match Numeral.read value with
      | .number number => .good number
      | .tooLong => .fail .oversizedInteger
      | .unreadable => .fail .unreadableInteger
  | _ => .fail .noInteger

def integerFrom (least : Int) (value : Value) : Checked Int :=
  value.integer.andThen fun number => if number < least then .fail .tooSmall else .good number

def orNull (check : Value → Checked α) : Value → Checked (Option α)
  | .null => .good none
  | value => (check value).map some

def listed (known : String → Option α) : Value → Checked α
  | .text name =>
      match known name with
      | some member => .good member
      | none => .fail .notListed
  | _ => .fail .notListed

def plainText : Value → Checked String
  | .text value => .good value
  | _ => .fail .noText

def listOf (check : Value → Checked α) : Value → Checked (List α)
  | .list items => Checked.all check 0 items
  | _ => .fail .noList

def entries : Value → Checked (List (String × Value))
  | .object entries => .good entries
  | _ => .fail .noObject

def required (name : String) (check : Value → Checked α) (entries : List (String × Value)) :
    Checked α :=
  match entries.lookup name with
  | some value => (check value).within (.field name)
  | none => .bad [⟨[.field name], .missing⟩]

def optional (name : String) (default : α) (check : Value → Checked α)
    (entries : List (String × Value)) : Checked α :=
  match entries.lookup name with
  | some value => (check value).within (.field name)
  | none => .good default

end Value

end Recurrence
