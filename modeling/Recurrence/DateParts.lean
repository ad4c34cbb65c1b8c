import Recurrence.Digits
import Recurrence.WallTime

namespace Recurrence

/-! Wall-clock times from their parts.

`DateParts.wallTime` accepts exactly the parts that some time has.  The first fault wins, in the order
of the parts, and a number that no machine integer can hold is a fault before all others.
-/

/-- A year, month, day, hour, minute and second, not yet known to be those of any time. -/
structure DateParts where
  year : Int
  month : Int
  day : Int
  hour : Int
  minute : Int
  second : Int
deriving DecidableEq, Repr

inductive DateFault
  /-- A part does not fit into 64 bits. -/
  | beyondLong
  | aboveInt
  | belowInt
  | yearOutOfRange (year : Int)
  | monthOutOfRange
  | dayOutOfRange
  | hourOutOfRange
  | minuteOutOfRange
  | secondOutOfRange
deriving DecidableEq, Repr

def DateFault.reason : DateFault → String
  | beyondLong => "Python int too large to convert to C long"
  | aboveInt => "signed integer is greater than maximum"
  | belowInt => "signed integer is less than minimum"
  | yearOutOfRange year => "year " ++ Digits.text year ++ " is out of range"
  | monthOutOfRange => "month must be in 1..12"
  | dayOutOfRange => "day is out of range for month"
  | hourOutOfRange => "hour must be in 0..23"
  | minuteOutOfRange => "minute must be in 0..59"
  | secondOutOfRange => "second must be in 0..59"

namespace DateParts

def sizeFault? (part : Int) : Option DateFault :=
  if part < -9223372036854775808 ∨ 9223372036854775807 < part then some .beyondLong
  else if 2147483647 < part then some .aboveInt
  else if part < -2147483648 then some .belowInt
  else none

def values (parts : DateParts) : List Int :=
  [parts.year, parts.month, parts.day, parts.hour, parts.minute, parts.second]

/-- The first fault of the parts, none when they are those of a time. -/
def fault? (parts : DateParts) : Option DateFault :=
  match parts.values.findSome? sizeFault? with
  | some fault => some fault
  | none =>
      if parts.year < 1 ∨ lastYear < parts.year then some (.yearOutOfRange parts.year)
      else if parts.month < 1 ∨ 12 < parts.month then some .monthOutOfRange
      else if parts.day < 1 ∨ monthLength parts.year.toNat parts.month.toNat < parts.day then
        some .dayOutOfRange
      else if parts.hour < 0 ∨ 23 < parts.hour then some .hourOutOfRange
      else if parts.minute < 0 ∨ 59 < parts.minute then some .minuteOutOfRange
      else if parts.second < 0 ∨ 59 < parts.second then some .secondOutOfRange
      else none

def text (parts : DateParts) : String :=
  "\x7b'year': " ++ Digits.text parts.year ++ ", 'month': " ++ Digits.text parts.month ++
    ", 'day': " ++ Digits.text parts.day ++ ", 'hour': " ++ Digits.text parts.hour ++
    ", 'minute': " ++ Digits.text parts.minute ++ ", 'second': " ++ Digits.text parts.second ++
    "\x7d"

def complaint (parts : DateParts) (fault : DateFault) : String :=
  "Invalid date components: " ++ parts.text ++ " (" ++ fault.reason ++ ")"

def seconds (parts : DateParts) : Nat :=
  dayNumber parts.year.toNat parts.month.toNat parts.day.toNat * 86400 +
    parts.hour.toNat * 3600 + parts.minute.toNat * 60 + parts.second.toNat

def wallTime (parts : DateParts) : Except DateFault WallTime :=
  match parts.fault? with
  | some fault => .error fault
  | none =>
      match WallTime.ofSeconds? parts.seconds with
      | some time => .ok time
      | none => .error (.yearOutOfRange parts.year)

end DateParts

/-- The parts of a time, without the fraction of its second. -/
def WallTime.parts (time : WallTime) : DateParts where
  year := time.date.year
  month := time.date.month
  day := time.date.day
  hour := time.hour
  minute := time.minute
  second := time.second

end Recurrence
