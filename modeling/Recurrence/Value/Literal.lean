import Recurrence.DateText
import Recurrence.Value
import Recurrence.Value.Printable

namespace Recurrence

/-! How a value is written where a message shows it.

A text stands between single quotes, or between double quotes when it holds a single quote and no
double one.  Characters that leave no mark on paper are written by their numbers.
-/

namespace Quoted

def hexDigit (digit : Nat) : Char :=
  if digit < 10 then Char.ofNat (48 + digit) else Char.ofNat (87 + digit)

def hex : Nat → Nat → List Char
  | 0, _ => []
  | width + 1, number => hex width (number / 16) ++ [hexDigit (number % 16)]

/-- A character by its number, in two, four or eight hexadecimal digits. -/
def byNumber (c : Char) : List Char :=
  if c.toNat < 256 then '\\' :: 'x' :: hex 2 c.toNat
  else if c.toNat < 65536 then '\\' :: 'u' :: hex 4 c.toNat
  else '\\' :: 'U' :: hex 8 c.toNat

def inside (quote c : Char) : List Char :=
  if c = quote ∨ c = '\\' then ['\\', c]
  else if c = '\n' then ['\\', 'n']
  else if c = '\r' then ['\\', 'r']
  else if c = '\t' then ['\\', 't']
  else if Printable.isPrintable c then [c]
  else byNumber c

def chars (text : List Char) : List Char :=
  let quote := if '\'' ∈ text ∧ '"' ∉ text then '"' else '\''
  quote :: text.flatMap (inside quote) ++ [quote]

def text (value : String) : String := String.ofList (chars value.toList)

end Quoted

namespace Value

mutual

/-- Writes a value so that its type can be seen. -/
def written : Value → String
  | null => "None"
  | bool true => "True"
  | bool false => "False"
  | int value => Digits.text value
  | double value => value.literal
  | text value => Quoted.text value
  | list items => "[" ++ ", ".intercalate (itemsWritten items) ++ "]"
  | object entries => "\x7b" ++ ", ".intercalate (entriesWritten entries) ++ "\x7d"
  | date value => value.text

def itemsWritten : List Value → List String
  | [] => []
  | item :: rest => item.written :: itemsWritten rest

def entriesWritten : List (String × Value) → List String
  | [] => []
  | (key, value) :: rest => (Quoted.text key ++ ": " ++ value.written) :: entriesWritten rest

end

/-- Writes a text as it is and any other value so that its type can be seen. -/
def display : Value → String
  | text value => value
  | value => value.written

/-- Why a value is not written: one of its integers has too many digits, or its parts lie too deep inside
each other. -/
inductive WritingFault
  | tooManyDigits
  | tooDeep
deriving DecidableEq, Repr

mutual

/-- The first fault in writing a value, if it is written by steps into its parts and no more than `reach`
of them can be under way at once.  An entry takes as many steps for its key as for its value. -/
def writingFault? : Nat → Value → Option WritingFault
  | 0, _ => some .tooDeep
  | _ + 1, int value => if Digits.isWritable value then none else some .tooManyDigits
  | reach + 1, list items => itemsFault? reach items
  | reach + 1, object entries => entriesFault? reach entries
  | _ + 1, _ => none

def itemsFault? (reach : Nat) : List Value → Option WritingFault
  | [] => none
  | item :: rest => (writingFault? reach item).or (itemsFault? reach rest)

def entriesFault? (reach : Nat) : List (String × Value) → Option WritingFault
  | [] => none
  | (_, value) :: rest => (writingFault? reach value).or (entriesFault? reach rest)

end

/-- Writes a value unless that takes too many digits or too many steps. -/
def literal (reach : Nat) (value : Value) : Except WritingFault String :=
  match value.writingFault? reach with
  | some fault => .error fault
  | none => .ok value.written

end Value

end Recurrence
