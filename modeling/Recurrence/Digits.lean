namespace Recurrence

/-! Decimal digits: writing numbers, with padding and sign, and reading them back.

`readNat_padded` and `readInt_ofInt` say that reading undoes writing for every number and every
width.  Reading accepts ASCII digits alone, and of signs only a minus in front.
-/

namespace Digits

def digitChar (digit : Nat) : Char := Char.ofNat (48 + digit)

def isDigit (c : Char) : Bool := '0' ≤ c && c ≤ '9'

def digitValue (c : Char) : Nat := c.toNat - 48

def ofNat (n : Nat) : List Char :=
  if n < 10 then [digitChar n] else ofNat (n / 10) ++ [digitChar (n % 10)]

def padded (n : Nat) (width : Int) : List Char :=
  List.replicate (width.toNat - (ofNat n).length) '0' ++ ofNat n

/-- A number with its sign: a minus if it is negative, then the padded digits of its size. -/
def ofInt (value : Int) (width : Int) : List Char :=
  if value < 0 then '-' :: padded value.natAbs width else padded value.natAbs width

/-- The most digits of an integer that is turned into a text, or read as a value from one. -/
def greatestLength : Nat := 4300

def isWritable (value : Int) : Bool := decide (value.natAbs < Nat.pow 10 greatestLength)

def text (value : Int) : String := String.ofList (ofInt value 0)

/-- The digits of a number from the last one to the first, as division by ten gives them. -/
def backwards (n : Nat) : List Char :=
  digitChar (n % 10) :: if n / 10 = 0 then [] else backwards (n / 10)

/-- Writes a number behind what a buffer holds: its sign, zeros up to the width, its digits. -/
def append (buffer : List Char) (value width : Int) : List Char :=
  let signed := if value < 0 then buffer ++ ['-'] else buffer
  let digits := backwards value.natAbs
  signed ++ List.replicate (width - digits.length).toNat '0' ++ digits.reverse

/-- Continues to read digits when those before them make `value`. -/
def readFrom (value : Nat) : List Char → Option Nat
  | [] => some value
  | c :: rest => if isDigit c then readFrom (value * 10 + digitValue c) rest else none

/-- The number that a nonempty run of digits writes; leading zeros count for nothing. -/
def readNat : List Char → Option Nat
  | [] => none
  | digits => readFrom 0 digits

def readInt : List Char → Option Int
  | '-' :: digits => (readNat digits).map fun (n : Nat) => -(n : Int)
  | digits => (readNat digits).map fun (n : Nat) => (n : Int)

theorem isDigit_digitChar {digit : Nat} (small : digit < 10) : isDigit (digitChar digit) = true := by
  have cases : digit = 0 ∨ digit = 1 ∨ digit = 2 ∨ digit = 3 ∨ digit = 4 ∨ digit = 5 ∨
      digit = 6 ∨ digit = 7 ∨ digit = 8 ∨ digit = 9 := by omega
  rcases cases with rfl | rfl | rfl | rfl | rfl | rfl | rfl | rfl | rfl | rfl <;> decide

theorem digitValue_digitChar {digit : Nat} (small : digit < 10) :
    digitValue (digitChar digit) = digit := by
  have cases : digit = 0 ∨ digit = 1 ∨ digit = 2 ∨ digit = 3 ∨ digit = 4 ∨ digit = 5 ∨
      digit = 6 ∨ digit = 7 ∨ digit = 8 ∨ digit = 9 := by omega
  rcases cases with rfl | rfl | rfl | rfl | rfl | rfl | rfl | rfl | rfl | rfl <;> decide

theorem ofNat_ne_nil (n : Nat) : ofNat n ≠ [] := by
  unfold ofNat
  split <;> simp

theorem readFrom_append {value : Nat} {first second : List Char} {middle : Nat}
    (read : readFrom value first = some middle) :
    readFrom value (first ++ second) = readFrom middle second := by
  induction first generalizing value with
  | nil =>
      simp only [readFrom, Option.some.injEq] at read
      simp [read]
  | cons c rest ih =>
      simp only [readFrom, List.cons_append] at read ⊢
      split at read
      · next digit => rw [if_pos digit, ih read]
      · simp at read

theorem readFrom_zeros (count : Nat) (digits : List Char) :
    readFrom 0 (List.replicate count '0' ++ digits) = readFrom 0 digits := by
  induction count with
  | zero => simp
  | succ count ih =>
      simp only [List.replicate_succ, List.cons_append, readFrom]
      rw [if_pos (by decide)]
      exact ih

theorem readFrom_ofNat (n : Nat) : readFrom 0 (ofNat n) = some n := by
  induction n using Nat.strongRecOn with
  | _ n ih =>
      unfold ofNat
      split
      · next small => simp [readFrom, isDigit_digitChar small, digitValue_digitChar small]
      · next large =>
          have small : n % 10 < 10 := Nat.mod_lt _ (by decide)
          rw [readFrom_append (ih (n / 10) (by omega))]
          simp only [readFrom, isDigit_digitChar small, digitValue_digitChar small, if_true,
            Option.some.injEq]
          omega

theorem readNat_of_ne_nil {digits : List Char} (some : digits ≠ []) :
    readNat digits = readFrom 0 digits := by
  cases digits with
  | nil => exact absurd rfl some
  | cons c rest => rfl

theorem padded_ne_nil (n : Nat) (width : Int) : padded n width ≠ [] := by
  simp [padded, ofNat_ne_nil]

/-- Reading a padded number gives it back, whatever the width. -/
theorem readNat_padded (n : Nat) (width : Int) : readNat (padded n width) = some n := by
  rw [readNat_of_ne_nil (padded_ne_nil n width), padded, readFrom_zeros, readFrom_ofNat]

theorem length_padded (n : Nat) (width : Int) :
    (padded n width).length = max width.toNat (ofNat n).length := by
  simp only [padded, List.length_append, List.length_replicate]
  omega

theorem head_padded_ne_minus (n : Nat) (width : Int) (rest : List Char) :
    padded n width ≠ '-' :: rest := by
  intro same
  have read := readNat_padded n width
  rw [same] at read
  have notDigit : isDigit '-' = false := by decide
  simp [readNat, readFrom, notDigit] at read

/-- Reading a signed number gives it back, whatever the width. -/
theorem readInt_ofInt (value width : Int) : readInt (ofInt value width) = some value := by
  unfold ofInt
  split
  · next negative =>
      rw [readInt, readNat_padded, Option.map_some]
      exact congrArg some (by omega)
  · next positive =>
      unfold readInt
      split
      · next digits same => exact absurd same (head_padded_ne_minus _ _ _)
      · rw [readNat_padded, Option.map_some]
        exact congrArg some (by omega)

end Digits

end Recurrence
