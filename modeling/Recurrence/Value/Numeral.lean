import Recurrence.Digits

namespace Recurrence

/-! Integers as people write them.

The plain form of an integer is an optional minus and digits without a needless zero in front.
`Numeral.read` also takes a text that has the plain form once it is tidied: without the blanks around
it, a plus, zeros in front, a fraction of zeros and single underscores between the digits.
-/

namespace Numeral

inductive Reading
  | number (value : Int)
  | tooLong
  | unreadable
deriving DecidableEq, Repr

/-- The greatest length of an integer in the plain form, with its minus. -/
def greatestLength : Nat := 4300

def blankBlocks : List (Nat × Nat) :=
  [(9, 13), (32, 32), (133, 133), (160, 160), (5760, 5760), (8192, 8202), (8232, 8233), (8239, 8239),
    (8287, 8287), (12288, 12288)]

def isBlank (c : Char) : Bool :=
  blankBlocks.any fun block => decide (block.1 ≤ c.toNat ∧ c.toNat ≤ block.2)

def trim (text : List Char) : List Char :=
  ((text.dropWhile isBlank).reverse.dropWhile isBlank).reverse

/-- Reads digits that follow on `before` characters.  A run of digits that is too long counts as such
whatever follows it. -/
def readDigits (before : Nat) (digits : List Char) : Reading :=
  match digits with
  | ['0'] => .number 0
  | '0' :: _ => .unreadable
  | digits =>
      let run := digits.takeWhile Digits.isDigit
      if greatestLength < before + run.length then .tooLong
      else
        match Digits.readNat digits with
        | some number => .number number
        | none => .unreadable

def Reading.negated : Reading → Reading
  | number value => number (-value)
  | reading => reading

def readPlain (text : List Char) : Reading :=
  match text with
  | '-' :: digits => (readDigits 1 digits).negated
  | digits => readDigits 0 digits

/-- Drops a plus that no minus follows. -/
def withoutPlus : List Char → Option (List Char)
  | '+' :: '-' :: _ => none
  | '+' :: rest => some rest
  | text => some text

/-- Drops zeros and underscores after a zero, which is kept if nothing but a fraction follows. -/
def afterZero (last : Char) : List Char → Option (List Char)
  | [] => some [last]
  | c :: rest =>
      if c = '0' ∨ c = '_' then afterZero c rest
      else if Digits.isDigit c ∨ c = '-' then some (c :: rest)
      else if c = '.' then some (last :: c :: rest)
      else none

def withoutZeros : List Char → Option (List Char)
  | '0' :: rest => afterZero '0' rest
  | c :: rest => if Digits.isDigit c ∨ c = '-' then some (c :: rest) else none
  | [] => none

/-- Drops a fraction, which must be zeros. -/
def withoutFraction (text : List Char) : Option (List Char) :=
  match text.dropWhile fun c => c != '.' with
  | [] => some text
  | _ :: fraction =>
      if fraction.isEmpty || fraction.any fun c => c != '0' then none
      else some (text.takeWhile fun c => c != '.')

/-- Drops underscores that stand alone between other characters. -/
def ungrouped (text : List Char) : List Char :=
  if text.head? = some '_' ∨ text.getLast? = some '_' ∨
      (text.zip (text.drop 1)).any fun pair => pair.1 = '_' && pair.2 = '_' then text
  else text.filter fun c => c != '_'

def readSigned (text : List Char) : Option Int :=
  let size (digits : List Char) : Option Int :=
    (Digits.readNat (ungrouped digits)).map fun (n : Nat) => (n : Int)
  match trim text with
  | '-' :: digits => (size digits).map fun number => -number
  | '+' :: digits => size digits
  | digits => size digits

def tidied (text : List Char) : Option (List Char) := do
  let text ← withoutPlus text
  let text ← withoutZeros text
  let text ← withoutFraction text
  return ungrouped text

def read (text : String) : Reading :=
  let bare := trim text.toList
  match readPlain bare with
  | .unreadable =>
      match tidied bare with
      | some tidy => readPlain tidy
      | none => .unreadable
  | reading => reading

end Numeral

end Recurrence
