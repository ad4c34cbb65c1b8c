import Recurrence.Value.Literal

namespace Recurrence.Value

/-! Writing values as documents, with one member on a line and two blanks for every level. -/

namespace Document

def unit (number : Nat) : List Char := '\\' :: 'u' :: Quoted.hex 4 number

/-- A character inside quotes; those that are not ASCII are written by their numbers. -/
def inside (c : Char) : List Char :=
  if c = '"' ∨ c = '\\' then ['\\', c]
  else if c = '\n' then ['\\', 'n']
  else if c = '\r' then ['\\', 'r']
  else if c = '\t' then ['\\', 't']
  else if c = '\x08' then ['\\', 'b']
  else if c = '\x0c' then ['\\', 'f']
  else if 32 ≤ c.toNat ∧ c.toNat < 127 then [c]
  else if c.toNat < 65536 then unit c.toNat
  else unit (55296 + (c.toNat - 65536) / 1024) ++ unit (56320 + (c.toNat - 65536) % 1024)

def string (text : String) : String :=
  String.ofList ('"' :: text.toList.flatMap inside ++ ['"'])

def lineBreak (level : Nat) : String := String.ofList ('\n' :: List.replicate (2 * level) ' ')

/-- Members between brackets, each on a line of its own. -/
def members (opening closing : String) (level : Nat) (texts : List String) : String :=
  if texts.isEmpty then opening ++ closing
  else opening ++ ",".intercalate (texts.map fun text => lineBreak (level + 1) ++ text) ++
    lineBreak level ++ closing

mutual

def write (level : Nat) : Value → String
  | null => "null"
  | bool true => "true"
  | bool false => "false"
  | int value => Digits.text value
  | double value => value.literal
  | text value => string value
  | list items => members "[" "]" level (writeItems (level + 1) items)
  | object entries => members "\x7b" "\x7d" level (writeEntries (level + 1) entries)
  | date value => Digits.text value.wall.micros

def writeItems (level : Nat) : List Value → List String
  | [] => []
  | item :: rest => write level item :: writeItems level rest

def writeEntries (level : Nat) : List (String × Value) → List String
  | [] => []
  | (key, value) :: rest => (string key ++ ": " ++ write level value) :: writeEntries level rest

end

end Document

def document (value : Value) : String := Document.write 0 value

end Recurrence.Value
