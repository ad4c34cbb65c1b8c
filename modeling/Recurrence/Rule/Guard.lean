import Recurrence.Rule.Error
import Recurrence.Value.Literal

namespace Recurrence

/-! Checks on a rule text before it is read: that it is a text at all, its length, and its characters.

`RuleGuard.check` answers with the text itself when all of them hold.  The first that does not hold
decides the error, and of the characters the first bad one.  The error shows a value that is no text, and
a limit that is exceeded, where these can be written.
-/

namespace RuleGuard

def defaultLimit : Int := 1024

def isAscii (c : Char) : Bool := c.toNat < 128

def isControl (c : Char) : Bool := c.toNat < 32 || c.toNat = 127

def excerpt (chars : List Char) : String := String.ofList (chars.take 50) ++ "..."

def findChar (property : Char → Bool) (chars : List Char) : Option (Nat × Char) :=
  match chars.findIdx? property, chars.find? property with
  | some position, some c => some (position, c)
  | _, _ => none

/-- The fault of a text's characters, none when all are printable ASCII. -/
def charFault? (text : String) : Option RuleError :=
  match findChar (fun c => !isAscii c) text.toList with
  | some (position, c) =>
      some ⟨text, .notAscii, some position, none, some (String.ofList [c])⟩
  | none =>
      (findChar isControl text.toList).map fun found =>
        ⟨text, .controlCharacter, some found.1, none,
          some (Quoted.text (String.ofList [found.2]))⟩

def checkText (text : String) (limit : Int) : Except ParseFailure String :=
  if text.isEmpty then .error (.rule ⟨text, .empty, some 0, none, none⟩)
  else if limit < text.toList.length then
    if Digits.isWritable limit then
      .error (.rule ⟨excerpt text.toList, .tooLong limit, none, none, none⟩)
    else .error (.unwritten .tooManyDigits)
  else
    match charFault? text with
    | some error => .error (.rule error)
    | none => .ok text

/-- The failure for a value that is no text. -/
def notText (reach : Nat) (value : Value) : ParseFailure :=
  match value.literal reach with
  | .error fault => .unwritten fault
  | .ok literal => .rule ⟨literal, .notText value.typeName, none, none, none⟩

def check (reach : Nat) (value : Value) (limit : Int) : Except ParseFailure String :=
  match value with
  | .text text => checkText text limit
  | other => .error (notText reach other)

end RuleGuard

end Recurrence
