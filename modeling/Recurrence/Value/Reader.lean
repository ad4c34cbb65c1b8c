import Recurrence.Value

namespace Recurrence.Value

/-! Reading values from documents.

A document is one value with blanks around it.  Strings may not hold control characters, numbers may
not begin with a needless zero, and no comma may follow the last member.  Of two entries of an object
with one key the later one counts, in the place of the earlier.

The reader stands inside every bracket that it has opened and not yet closed.  How many of them it can
stand inside at once is its reach; one more is a fault of its own, whatever follows the bracket.
-/

/-- Why a document gives nothing: it is not what it should be, or its brackets lie too deep. -/
inductive DocumentFault
  | unusable
  | tooDeep
deriving DecidableEq, Repr

namespace Reader

def isBlank (c : Char) : Bool := c = ' ' ∨ c = '\t' ∨ c = '\n' ∨ c = '\r'

def skipBlanks (chars : List Char) : List Char := chars.dropWhile isBlank

def after? (word : String) (chars : List Char) : Option (List Char) :=
  if word.toList.isPrefixOf chars then some (chars.drop word.length) else none

def hexValue? (c : Char) : Option Nat :=
  if Digits.isDigit c then some (c.toNat - 48)
  else if 'a' ≤ c ∧ c ≤ 'f' then some (c.toNat - 87)
  else if 'A' ≤ c ∧ c ≤ 'F' then some (c.toNat - 55)
  else none

def escape? : Char → Option Char
  | '"' => some '"'
  | '\\' => some '\\'
  | '/' => some '/'
  | 'b' => some '\x08'
  | 'f' => some '\x0c'
  | 'n' => some '\n'
  | 'r' => some '\r'
  | 't' => some '\t'
  | _ => none

/-- Reads the code units of a string up to its closing quote.  An escape by number gives one unit of
16 bits, every other character its own number. -/
def units : List Char → Option (List Nat × List Char)
  | [] => none
  | '"' :: rest => some ([], rest)
  | '\\' :: 'u' :: a :: b :: c :: d :: rest => do
      let unit := (← hexValue? a) * 4096 + (← hexValue? b) * 256 + (← hexValue? c) * 16 +
        (← hexValue? d)
      let tail ← units rest
      return (unit :: tail.1, tail.2)
  | '\\' :: letter :: rest => do
      let c ← escape? letter
      let tail ← units rest
      return (c.toNat :: tail.1, tail.2)
  | c :: rest => do
      if c.toNat < 32 ∨ c = '\\' then none
      else
        let tail ← units rest
        return (c.toNat :: tail.1, tail.2)

/-- The character of a unit that stands alone: half of a pair has none, and the replacement character
takes its place. -/
def ofUnit (unit : Nat) : Char :=
  if 55296 ≤ unit ∧ unit < 57344 then Char.ofNat 65533 else Char.ofNat unit

/-- Joins the pairs of units that stand for one character. -/
def ofUnits : List Nat → List Char
  | [] => []
  | [unit] => [ofUnit unit]
  | high :: low :: rest =>
      if 55296 ≤ high ∧ high < 56320 ∧ 56320 ≤ low ∧ low < 57344 then
        Char.ofNat (65536 + (high - 55296) * 1024 + (low - 56320)) :: ofUnits rest
      else ofUnit high :: ofUnits (low :: rest)

def string? (chars : List Char) : Option (String × List Char) :=
  (units chars).map fun read => (String.ofList (ofUnits read.1), read.2)

def exponent? (chars : List Char) : Option (Int × List Char) :=
  let signed (negative : Bool) (digits : List Char) : Option (Int × List Char) :=
    (Digits.readNat (digits.takeWhile Digits.isDigit)).map fun size =>
      (if negative then -(size : Int) else size, digits.dropWhile Digits.isDigit)
  match chars with
  | e :: rest =>
      if e = 'e' ∨ e = 'E' then
        match rest with
        | '-' :: digits => signed true digits
        | '+' :: digits => signed false digits
        | digits => signed false digits
      else none
  | [] => none

def fraction? (chars : List Char) : Option (List Char × List Char) :=
  match chars with
  | '.' :: rest =>
      let digits := rest.takeWhile Digits.isDigit
      if digits.isEmpty then none else some (digits, rest.dropWhile Digits.isDigit)
  | _ => none

/-- The digits before a fraction; behind a zero in front there are no more of them. -/
def wholeDigits (chars : List Char) : List Char :=
  match chars with
  | '0' :: _ => ['0']
  | _ => chars.takeWhile Digits.isDigit

def unsignedNumber? (negative : Bool) (chars : List Char) : Option (Value × List Char) :=
  let whole := wholeDigits chars
  let rest := chars.drop whole.length
  match Digits.readNat whole with
  | none => none
  | some size =>
      let fraction := fraction? rest
      let rest := (fraction.map Prod.snd).getD rest
      let exponent := exponent? rest
      if fraction.isNone && exponent.isNone then
        if Digits.greatestLength < whole.length then none
        else some (.int (if negative then -(size : Int) else size), rest)
      else
        let digits := (fraction.map Prod.fst).getD []
        let coefficient := (Digits.readNat (whole ++ digits)).getD size
        let power := (exponent.map Prod.fst).getD 0 - digits.length
        some (.double (.ofDecimal negative coefficient power), (exponent.map Prod.snd).getD rest)

def number? (chars : List Char) : Option (Value × List Char) :=
  match chars with
  | '-' :: rest =>
      match after? "Infinity" rest with
      | some rest => some (.double (.infinite true), rest)
      | none => unsignedNumber? true rest
  | _ => unsignedNumber? false chars

def scalar? (chars : List Char) : Option (Value × List Char) :=
  match chars with
  | '"' :: rest => (string? rest).map fun read => (.text read.1, read.2)
  | _ =>
      match after? "null" chars, after? "true" chars, after? "false" chars, after? "NaN" chars,
        after? "Infinity" chars with
      | some rest, _, _, _, _ => some (.null, rest)
      | _, some rest, _, _, _ => some (.bool true, rest)
      | _, _, some rest, _, _ => some (.bool false, rest)
      | _, _, _, some rest, _ => some (.double .undefined, rest)
      | _, _, _, _, some rest => some (.double (.infinite false), rest)
      | none, none, none, none, none => number? chars

/-- What a reader of a single word found; a word has no brackets. -/
def orUnusable : Option α → Except DocumentFault α
  | some read => .ok read
  | none => .error .unusable

mutual

def value : Nat → Nat → List Char → Except DocumentFault (Value × List Char)
  | _, 0, _ => .error .unusable
  | reach, bound + 1, chars =>
      match reach, chars with
      | 0, '[' :: _ => .error .tooDeep
      | 0, '\x7b' :: _ => .error .tooDeep
      | reach + 1, '[' :: rest =>
          match skipBlanks rest with
          | ']' :: rest => .ok (.list [], rest)
          | rest => (items reach bound rest).map fun read => (.list read.1, read.2)
      | reach + 1, '\x7b' :: rest =>
          match skipBlanks rest with
          | '\x7d' :: rest => .ok (.object [], rest)
          | rest => (entries reach bound [] rest).map fun read => (.object read.1, read.2)
      | _, _ => orUnusable (scalar? chars)

def items : Nat → Nat → List Char → Except DocumentFault (List Value × List Char)
  | _, 0, _ => .error .unusable
  | reach, bound + 1, chars =>
      match value reach bound chars with
      | .error fault => .error fault
      | .ok (item, rest) =>
          match skipBlanks rest with
          | ']' :: rest => .ok ([item], rest)
          | ',' :: rest =>
              (items reach bound (skipBlanks rest)).map fun read => (item :: read.1, read.2)
          | _ => .error .unusable

def entries : Nat → Nat → List (String × Value) → List Char →
    Except DocumentFault (List (String × Value) × List Char)
  | _, 0, _, _ => .error .unusable
  | reach, bound + 1, before, chars =>
      match chars with
      | '"' :: rest =>
          match string? rest with
          | none => .error .unusable
          | some (key, rest) =>
              match skipBlanks rest with
              | ':' :: rest =>
                  match value reach bound (skipBlanks rest) with
                  | .error fault => .error fault
                  | .ok (value, rest) =>
                      match skipBlanks rest with
                      | '\x7d' :: rest => .ok (setEntry before key value, rest)
                      | ',' :: rest =>
                          entries reach bound (setEntry before key value) (skipBlanks rest)
                      | _ => .error .unusable
              | _ => .error .unusable
      | _ => .error .unusable

end

end Reader

/-- Reads a document.  Every member takes at least two characters, so the bound is never met. -/
def ofDocument (reach : Nat) (document : String) : Except DocumentFault Value :=
  let chars := document.toList
  match Reader.value reach (2 * chars.length + 2) (Reader.skipBlanks chars) with
  | .ok (value, rest) =>
      if (Reader.skipBlanks rest).isEmpty then .ok value else .error .unusable
  | .error fault => .error fault

/-- Reads a document however deep it is: it opens no more brackets than it has characters. -/
def ofDocument? (document : String) : Option Value :=
  match ofDocument document.length document with
  | .ok value => some value
  | .error _ => none

end Recurrence.Value
