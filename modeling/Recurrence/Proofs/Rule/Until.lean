import Recurrence.Proofs.DateParts
import Recurrence.Proofs.Digits
import Recurrence.Proofs.Zone.Name
import Recurrence.Rule.Printer
import Recurrence.Proofs.Rule.Pieces

namespace Recurrence

/-! The digits of a date are read back.

All digits of a date stand at fixed places, so the five ways to write a last date are told apart by
their length, their first characters and their last one.
-/

namespace RuleText

theorem length_year (time : WallTime) : (Digits.padded time.date.year 4).length = 4 :=
  Digits.length_padded_of_lt (Nat.lt_succ_of_le time.date_bounds.2.1)

theorem length_two {n : Nat} (small : n < 100) : (Digits.padded n 2).length = 2 :=
  Digits.length_padded_of_lt small

theorem month_lt (time : WallTime) : time.date.month < 100 := by
  have bounds := time.date_bounds
  omega

theorem day_lt (time : WallTime) : time.date.day < 100 := by
  have bounds := time.date_bounds
  omega

theorem length_dateChars (time : WallTime) : (dateChars time).length = 8 := by
  simp only [dateChars, List.length_append, length_year, length_two (month_lt time),
    length_two (day_lt time)]

theorem length_dateTimeChars (time : WallTime) : (dateTimeChars time).length = 15 := by
  have hour := time.hour_lt
  have minute := time.minute_lt
  have second := time.second_lt
  simp only [dateTimeChars, List.length_append, List.length_cons, length_dateChars,
    length_two (Nat.lt_trans hour (by decide)), length_two (Nat.lt_trans minute (by decide)),
    length_two (Nat.lt_trans second (by decide))]

end RuleText

namespace Until

open RuleText

theorem has_of_bounds {least greatest : Int} {n : Nat} (lower : least ≤ n) (upper : n ≤ greatest) :
    (Domain.mk least greatest true).has n = true := by
  simp [Domain.has, lower, upper]

theorem twoDigits_append {domain : Domain} {date : List Char} {index : Nat}
    (before two after : List Char) (shape : date = before ++ (two ++ after))
    (place : before.length = index) (isTwo : two.length = 2) :
    twoDigits domain date index = domain.read two := by
  rw [shape, twoDigits, List.drop_left' place, List.take_left' isTwo]

/-- The fields of a time of day stand behind the letter. -/
theorem timeOfDay_append {date hour minute second : List Char} (isDate : date.length = 8)
    (isHour : hour.length = 2) (isMinute : minute.length = 2) (isSecond : second.length = 2) :
    timeOfDay (date ++ 'T' :: (hour ++ (minute ++ second))) = do
      let hour ← (Domain.mk 0 23 true).read hour
      let minute ← (Domain.mk 0 59 true).read minute
      let second ← (Domain.mk 0 60 true).read second
      return (hour, minute, second) := by
  have long : (date ++ 'T' :: (hour ++ (minute ++ second))).length = 15 := by
    simp only [List.length_append, List.length_cons]
    omega
  have mark : (date ++ 'T' :: (hour ++ (minute ++ second)))[8]? = some 'T' := by
    rw [List.getElem?_append_right (Nat.le_of_eq isDate), isDate]
    rfl
  rw [timeOfDay, long, if_neg (by decide), if_pos ⟨rfl, mark⟩,
    twoDigits_append (date ++ ['T']) hour (minute ++ second) (by simp) (by simp [isDate]) isHour,
    twoDigits_append (date ++ 'T' :: hour) minute second (by simp) (by simp [isDate, isHour])
      isMinute,
    twoDigits_append (date ++ 'T' :: (hour ++ minute)) second [] (by simp)
      (by simp [isDate, isHour, isMinute]) isSecond]

theorem read_padded {least greatest : Int} {n : Nat} (lower : least ≤ n) (upper : n ≤ greatest) :
    (Domain.mk least greatest true).read (Digits.padded n 2) = some (n : Int) := by
  rw [Domain.read, Digits.readInt_padded, Option.filter_some, if_pos (has_of_bounds lower upper)]

theorem read_dateChars (time : WallTime) (tail : List Char) :
    Digits.readNat ((dateChars time ++ tail).take 4) = some time.date.year ∧
      twoDigits ⟨1, 12, true⟩ (dateChars time ++ tail) 4 = some (time.date.month : Int) ∧
      twoDigits ⟨1, 31, true⟩ (dateChars time ++ tail) 6 = some (time.date.day : Int) := by
  have bounds := time.date_bounds
  refine ⟨?_, ?_, ?_⟩
  · rw [dateChars, List.append_assoc, List.append_assoc, List.take_left' (length_year time),
      Digits.readNat_padded]
  · rw [twoDigits_append (Digits.padded time.date.year 4) (Digits.padded time.date.month 2)
      (Digits.padded time.date.day 2 ++ tail) (by simp [dateChars]) (length_year time)
      (length_two (month_lt time))]
    exact read_padded (by omega) (by omega)
  · have place : (Digits.padded time.date.year 4 ++ Digits.padded time.date.month 2).length = 6 := by
      rw [List.length_append, length_year, length_two (month_lt time)]
    rw [twoDigits_append _ (Digits.padded time.date.day 2) tail (by simp [dateChars]) place
      (length_two (day_lt time))]
    exact read_padded (by omega) (by omega)

theorem timeOfDay_dateTimeChars (time : WallTime) :
    timeOfDay (dateTimeChars time) =
      some ((time.hour : Int), (time.minute : Int), (time.second : Int)) := by
  have hourBound := time.hour_lt
  have minuteBound := time.minute_lt
  have secondBound := time.second_lt
  have shape : dateTimeChars time = dateChars time ++ 'T' :: (Digits.padded time.hour 2 ++
      (Digits.padded time.minute 2 ++ Digits.padded time.second 2)) := by
    simp [dateTimeChars]
  rw [shape, timeOfDay_append (length_dateChars time) (length_two (by omega))
    (length_two (by omega)) (length_two (by omega)), read_padded (by omega) (by omega),
    read_padded (by omega) (by omega), read_padded (by omega) (by omega)]
  rfl

/-- The parts of a time are read off its digits. -/
theorem parts?_dateTimeChars (time : WallTime) : parts? (dateTimeChars time) = some time.parts := by
  have shape : dateTimeChars time = dateChars time ++ ('T' :: Digits.padded time.hour 2 ++
      Digits.padded time.minute 2 ++ Digits.padded time.second 2) := by
    simp [dateTimeChars]
  obtain ⟨year, month, day⟩ := read_dateChars time ('T' :: Digits.padded time.hour 2 ++
      Digits.padded time.minute 2 ++ Digits.padded time.second 2)
  rw [← shape] at year month day
  rw [parts?, timeOfDay_dateTimeChars, year, month, day]
  rfl

/-- The digits of a date alone are those of its midnight. -/
theorem parts?_dateChars {time : WallTime} (midnight : time.secondOfDay = 0) :
    parts? (dateChars time) = some time.parts := by
  obtain ⟨year, month, day⟩ := read_dateChars time []
  rw [List.append_nil] at year month day
  rw [parts?, timeOfDay, if_pos (length_dateChars time), year, month, day]
  simp [WallTime.parts, WallTime.hour, WallTime.minute, WallTime.second, midnight]

variable {calendar : Calendar} {time : WallTime}

theorem namesZone_of_isDigit {c : Char} (digit : Digits.isDigit c = true) (rest : List Char) :
    namesZone (c :: rest) = false := by
  have differs : c ≠ 'T' := by
    rintro rfl
    contradiction
  have prefix_ : "TZID=".toList = 'T' :: "ZID=".toList := rfl
  simp only [namesZone, prefix_, List.isPrefixOf, beq_eq_false_iff_ne.2 differs.symm, Bool.false_and]

theorem namesZone_dateChars (time : WallTime) (tail : List Char) :
    namesZone (dateChars time ++ tail) = false := by
  cases digits : Digits.padded time.date.year 4 with
  | nil => exact absurd digits (Digits.padded_ne_nil _ _)
  | cons c rest =>
      have digit : Digits.isDigit c = true :=
        Digits.isDigit_of_mem_padded (by rw [digits]; exact List.mem_cons_self)
      simp only [dateChars, digits, List.cons_append]
      exact namesZone_of_isDigit digit _

theorem isUtc_iff {value : List Char} :
    isUtc value = true ↔
      namesZone value = false ∧ value.length = 16 ∧ value.getLast? = some 'Z' := by
  simp [isUtc, and_assoc]

theorem makeDate_parts (whole : time.microsecond = 0) (zone : Option Zone) :
    calendar.makeDate time.parts zone = .ok ((zone.getD calendar.zone).localize time) := by
  rw [Calendar.makeDate, WallTime.wallTime_parts whole, Except.map]

theorem namesZone_dateTimeChars (time : WallTime) (tail : List Char) :
    namesZone (dateTimeChars time ++ tail) = false := by
  rw [dateTimeChars, List.append_assoc, List.append_assoc, List.append_assoc]
  exact namesZone_dateChars time _

variable [Zone.Directory]

theorem zoned_plain {value : List Char} (unnamed : namesZone value = false)
    (short : value.length ≠ 16) : zoned value = .ok (none, value) := by
  have notUtc : isUtc value = false := by
    rw [← Bool.not_eq_true, isUtc_iff]
    exact fun marked => short marked.2.1
  rw [zoned, unnamed, if_neg Bool.false_ne_true, notUtc, if_neg Bool.false_ne_true]

theorem zoned_utc {date : List Char} (unnamed : namesZone (date ++ ['Z']) = false)
    (fifteen : date.length = 15) : zoned (date ++ ['Z']) = .ok (some .utc, date) := by
  have length : (date ++ ['Z']).length = 16 := by
    rw [List.length_append, fifteen]
    rfl
  have marked := isUtc_iff.2 ⟨unnamed, length, List.getLast?_concat⟩
  rw [zoned, unnamed, if_neg Bool.false_ne_true, marked, if_pos rfl, List.dropLast_concat]

theorem zoned_named {name : String} {zone : Zone} (resolved : Zone.resolve? name = some zone)
    (date : List Char) :
    zoned ("TZID=".toList ++ name.toList ++ ':' :: date) = .ok (some zone, date) := by
  have noColon : ':' ∉ "TZID=".toList ++ name.toList := by
    intro member
    rcases List.mem_append.1 member with inKey | inName
    · exact absurd inKey (by decide)
    · exact absurd (Zone.isNameChar_of_resolve? resolved ':' inName) (by decide)
  have named : namesZone ("TZID=".toList ++ name.toList ++ ':' :: date) = true := by
    rw [namesZone, List.isPrefixOf_iff_prefix, List.append_assoc]
    exact List.prefix_append _ _
  have halves : cutAt? ':' ("TZID=".toList ++ name.toList ++ ':' :: date) =
      some ("TZID=".toList ++ name.toList, date) :=
    cutAt?_eq_some.2 ⟨rfl, noColon⟩
  have five : "TZID=".toList.length = 5 := rfl
  have left : String.ofList (("TZID=".toList ++ name.toList).drop 5) = name := by
    rw [List.drop_left' five, String.ofList_toList]
  rw [zoned, named, if_pos rfl, halves]
  simp only [left, resolved]

theorem read_of_parts {value date : List Char} {zone : Option Zone} {parts : DateParts}
    {made : Option Moment} (cut : zoned value = .ok (zone, date)) (digits : parts? date = some parts)
    (isMade : calendar.makeDate parts zone = .ok made) : Until.read calendar value = .ok made := by
  simp only [Until.read, cut, digits, isMade, bind, Except.bind, pure, Except.pure]

theorem read_day (whole : time.microsecond = 0) (midnight : time.secondOfDay = 0) :
    Until.read calendar (DateForm.day time).chars = .ok (calendar.zone.localize time) := by
  have unnamed := namesZone_dateChars time []
  rw [List.append_nil] at unnamed
  have cut := zoned_plain unnamed (by simp [length_dateChars])
  exact read_of_parts cut (parts?_dateChars midnight) (makeDate_parts whole none)

theorem read_plain (whole : time.microsecond = 0) :
    Until.read calendar (DateForm.plain time).chars = .ok (calendar.zone.localize time) := by
  have unnamed := namesZone_dateTimeChars time []
  rw [List.append_nil] at unnamed
  have cut := zoned_plain unnamed (by simp [length_dateTimeChars])
  exact read_of_parts cut (parts?_dateTimeChars time) (makeDate_parts whole none)

theorem read_utc (whole : time.microsecond = 0) :
    Until.read calendar (DateForm.utc time).chars = .ok (Zone.utc.localize time) := by
  have cut := zoned_utc (namesZone_dateTimeChars time ['Z']) (length_dateTimeChars time)
  exact read_of_parts cut (parts?_dateTimeChars time) (makeDate_parts whole (some .utc))

theorem read_zoned {name : String} {zone : Zone} (whole : time.microsecond = 0)
    (resolved : Zone.resolve? name = some zone) :
    Until.read calendar (DateForm.zoned name time).chars = .ok (zone.localize time) :=
  read_of_parts (zoned_named resolved (dateTimeChars time)) (parts?_dateTimeChars time)
    (makeDate_parts whole (some zone))

end Until

end Recurrence
