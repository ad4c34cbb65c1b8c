import Recurrence.DateParts
import Recurrence.Moment

namespace Recurrence

/-! Dates and times as texts of the international form.

The strict form is `2025-01-31T09:30:00.25+01:00`, in which the time, its seconds, its fraction and the
offset may be left out.  A comma may stand for the point, and the colon of the offset may be missing.
The lenient form also drops the separators inside the date and the time.  `WallTime.text` and
`Moment.text` write the full form.
-/

/-- A time and, if the text tells it, the seconds by which its clock is ahead of UTC. -/
structure DateText where
  time : WallTime
  offset : Option Int
deriving DecidableEq, Repr

namespace DateText

def digits? (count : Nat) (text : List Char) : Option (Nat × List Char) :=
  if (text.take count).length = count then
    (Digits.readNat (text.take count)).map fun number => (number, text.drop count)
  else none

def skip? (c : Char) : List Char → Option (List Char)
  | first :: rest => if first = c then some rest else none
  | [] => none

structure Day where
  year : Nat
  month : Nat
  day : Nat

/-- Reads a date, whose two separators are both there or, if `loose`, both missing. -/
def day? (loose : Bool) (text : List Char) : Option (Day × List Char) := do
  let (year, rest) ← digits? 4 text
  match skip? '-' rest with
  | some rest => do
      let (month, rest) ← digits? 2 rest
      let (day, rest) ← skip? '-' rest >>= digits? 2
      return (⟨year, month, day⟩, rest)
  | none =>
      if loose then do
        let (month, rest) ← digits? 2 rest
        let (day, rest) ← digits? 2 rest
        return (⟨year, month, day⟩, rest)
      else none

def microseconds (fraction : List Char) : Nat :=
  let used := fraction.take 6
  (Digits.readNat used).getD 0 * Nat.pow 10 (6 - used.length)

def fraction? (text : List Char) : Option (Nat × List Char) :=
  match text with
  | point :: rest =>
      if point = '.' ∨ point = ',' then
        let digits := rest.takeWhile Digits.isDigit
        if digits.isEmpty then none
        else some (microseconds digits, rest.dropWhile Digits.isDigit)
      else some (0, text)
  | [] => some (0, [])

structure Clock where
  hour : Nat
  minute : Nat
  second : Nat
  microsecond : Nat

def seconds? (separator : Bool) (text : List Char) : Option (Nat × Nat × List Char) :=
  match skip? ':' text, separator with
  | some rest, true => do
      let (second, rest) ← digits? 2 rest
      let (microsecond, rest) ← fraction? rest
      return (second, microsecond, rest)
  | _, true => some (0, 0, text)
  | _, false => do
      let (second, rest) ← digits? 2 text
      let (microsecond, rest) ← fraction? rest
      return (second, microsecond, rest)

/-- Reads a time of day.  Without separators it must have seconds. -/
def clock? (loose : Bool) (text : List Char) : Option (Clock × List Char) := do
  let (hour, rest) ← digits? 2 text
  match skip? ':' rest with
  | some rest => do
      let (minute, rest) ← digits? 2 rest
      let (second, microsecond, rest) ← seconds? true rest
      return (⟨hour, minute, second, microsecond⟩, rest)
  | none =>
      if loose then do
        let (minute, rest) ← digits? 2 rest
        let (second, microsecond, rest) ← seconds? false rest
        return (⟨hour, minute, second, microsecond⟩, rest)
      else none

/-- The sign of an offset; a minus may also have its own character. -/
def sign? : Char → Option Int
  | '+' => some 1
  | '-' | '−' => some (-1)
  | _ => none

def offset? (text : List Char) : Option (Option Int) :=
  match text with
  | [] => some none
  | ['Z'] | ['z'] => some (some 0)
  | first :: rest => do
      let sign ← sign? first
      let (hours, rest) ← digits? 2 rest
      let (minutes, rest) ← digits? 2 ((skip? ':' rest).getD rest)
      if !rest.isEmpty || 24 ≤ hours || 60 ≤ minutes then none
      else some (some (sign * (hours * 3600 + minutes * 60)))

def wallTime? (day : Day) (clock : Clock) : Option WallTime :=
  match DateParts.wallTime
      ⟨day.year, day.month, day.day, clock.hour, clock.minute, clock.second⟩ with
  | .ok time => time.addMicros clock.microsecond
  | .error _ => none

/-- Reads a text in the strict or the lenient form.  `separators` may stand between the date and the
time. -/
def read? (loose : Bool) (separators : List Char) (text : List Char) : Option DateText := do
  let (day, rest) ← day? loose text
  match rest with
  | [] => return ⟨← wallTime? day ⟨0, 0, 0, 0⟩, none⟩
  | separator :: rest =>
      if separator ∈ separators then do
        let (clock, rest) ← clock? loose rest
        let offset ← offset? rest
        return ⟨← wallTime? day clock, offset⟩
      else none

def strict? (text : String) : Option DateText := read? false ['T', 't', ' ', '_'] text.toList

/-- Whether a text would have the strict form but for its year, which is zero.  That year is taken to
have the days of 2000. -/
def isOfYearZero (text : String) : Bool :=
  match text.toList with
  | '0' :: '0' :: '0' :: '0' :: rest => (strict? (String.ofList ('2' :: '0' :: '0' :: '0' :: rest))).isSome
  | _ => false

def lenient? (text : String) : Option DateText := read? true ['T', ' '] text.toList

end DateText

def WallTime.text (time : WallTime) : String :=
  String.ofList <| Digits.padded time.date.year 4 ++ '-' :: Digits.padded time.date.month 2 ++
    '-' :: Digits.padded time.date.day 2 ++ 'T' :: Digits.padded time.hour 2 ++
    ':' :: Digits.padded time.minute 2 ++ ':' :: Digits.padded time.second 2 ++
    if time.microsecond = 0 then [] else '.' :: Digits.padded time.microsecond 6

/-- The text of an offset in hours and minutes, and in seconds and microseconds where it has any. -/
def offsetText (offset : Int) : String :=
  let seconds := offset.natAbs / microsPerSecond
  let micros := offset.natAbs % microsPerSecond
  String.ofList <| (if offset < 0 then '-' else '+') :: Digits.padded (seconds / 3600) 2 ++
    ':' :: Digits.padded (seconds / 60 % 60) 2 ++
    (if seconds % 60 = 0 ∧ micros = 0 then [] else ':' :: Digits.padded (seconds % 60) 2) ++
    if micros = 0 then [] else '.' :: Digits.padded micros 6

def Moment.text (moment : Moment) : String := moment.wall.text ++ offsetText moment.offset

def DateTime.text : DateTime → String
  | .naive time => time.text
  | .aware moment => moment.text

end Recurrence
