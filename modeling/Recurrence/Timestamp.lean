import Recurrence.Double
import Recurrence.WallTime

namespace Recurrence

/-! Times in UTC as numbers.

A number counts the seconds since the beginning of 1970, or the milliseconds if it is too great for
seconds.  It may have a fraction, and it may stand in a text.  Only times from 1600 on are numbers.
-/

namespace Timestamp

/-- The greatest size of a number of seconds. -/
def greatestSeconds : Int := 20000000000

/-- The number of the first second of 1600. -/
def firstSecond : Int := -11676096000

def lastSecond : Int := 253402300799

def secondsBefore : Int := 62135596800

def after? (seconds : Int) (micros : Nat) : Option WallTime :=
  let seconds := seconds + micros / microsPerSecond
  if firstSecond ≤ seconds ∧ seconds ≤ lastSecond then
    WallTime.ofMicros?
      ((seconds + secondsBefore) * microsPerSecond + (micros % microsPerSecond : Nat))
  else none

def time? (number : Int) (micros : Nat) : Option WallTime :=
  if number.natAbs ≤ greatestSeconds then after? number micros
  else after? (Int.fdiv number 1000) ((Int.fmod number 1000 * 1000).toNat + micros)

/-- A fraction as microseconds: the nearest number, and of two the greater. -/
def fractionMicros (numerator denominator : Nat) : Nat :=
  match (Double.nearest false (numerator * microsPerSecond) denominator).quotient? with
  | some (size, parts) => ((2 * size + parts) / (2 * parts)).toNat
  | none => 0

/-- The time of a number with a fraction, whose fraction counts parts of a second in any case. -/
def ofDouble? (number : Double) : Option WallTime :=
  match number.quotient? with
  | none => none
  | some (numerator, denominator) =>
      time? (Int.fdiv numerator denominator)
        (fractionMicros (numerator.natAbs % denominator) denominator)

/-- The time of a number in a text, whose fraction counts parts of a second or of a millisecond. -/
def ofDecimal? (number : Double) : Option WallTime := do
  let (numerator, denominator) ← number.quotient?
  let inSeconds := numerator.natAbs ≤ greatestSeconds * denominator
  let (numerator, denominator) ←
    if inSeconds then some (numerator, denominator)
    else (Double.nearest (numerator < 0) numerator.natAbs (denominator * 1000)).quotient?
  let (rest, parts) ←
    (Double.nearest false (Int.fmod numerator denominator).toNat denominator).quotient?
  time? (Int.fdiv numerator denominator) (fractionMicros rest.toNat parts)

def readUnsigned (negative : Bool) (text : List Char) : Option WallTime :=
  let whole := text.takeWhile Digits.isDigit
  match Digits.readNat whole, text.dropWhile Digits.isDigit with
  | some number, [] => time? (if negative then -(number : Int) else number) 0
  | some _, '.' :: fraction => do
      if fraction.all Digits.isDigit then
        let coefficient ← Digits.readNat (whole ++ fraction)
        ofDecimal? (.ofDecimal negative coefficient (-fraction.length))
      else none
  | _, _ => none

def read (text : List Char) : Option WallTime :=
  match text with
  | '-' :: rest => readUnsigned true rest
  | '+' :: rest => readUnsigned false rest
  | rest => readUnsigned false rest

end Timestamp

end Recurrence
