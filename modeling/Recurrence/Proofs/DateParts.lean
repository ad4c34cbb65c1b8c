import Mathlib.Logic.Basic
import Recurrence.DateParts
import Recurrence.Proofs.Civil

namespace Recurrence

/-! The parts of a time make that time again, when its seconds are whole, and no others make it
(`WallTime.wallTime_eq_ok`). -/

/-- Parts within the bounds of a date and of a time of day have no fault. -/
theorem DateParts.fault?_eq_none {parts : DateParts} (year : 1 ≤ parts.year ∧ parts.year ≤ 9999)
    (month : 1 ≤ parts.month ∧ parts.month ≤ 12)
    (day : 1 ≤ parts.day ∧ parts.day ≤ monthLength parts.year.toNat parts.month.toNat)
    (hour : 0 ≤ parts.hour ∧ parts.hour ≤ 23) (minute : 0 ≤ parts.minute ∧ parts.minute ≤ 59)
    (second : 0 ≤ parts.second ∧ parts.second ≤ 59) : parts.fault? = none := by
  have length_le := monthLength_le parts.year.toNat parts.month.toNat
  have last : lastYear = 9999 := rfl
  have small {part : Int} (lower : 0 ≤ part) (upper : part ≤ 9999) : sizeFault? part = none := by
    rw [sizeFault?, if_neg (by omega), if_neg (by omega), if_neg (by omega)]
  have sizes : parts.values.findSome? sizeFault? = none := by
    refine List.findSome?_eq_none_iff.2 fun part member => ?_
    simp only [values, List.mem_cons, List.not_mem_nil, or_false] at member
    rcases member with rfl | rfl | rfl | rfl | rfl | rfl <;> exact small (by omega) (by omega)
  simp only [fault?, sizes]
  rw [if_neg (by omega), if_neg (by omega), if_neg (by omega), if_neg (by omega), if_neg (by omega),
    if_neg (by omega)]

/-- Parts without a fault are those of a date that exists and of a time of day. -/
theorem DateParts.bounds_of_fault? {parts : DateParts} (noFault : parts.fault? = none) :
    (1 ≤ parts.year ∧ parts.year ≤ 9999) ∧ (1 ≤ parts.month ∧ parts.month ≤ 12) ∧
      (1 ≤ parts.day ∧ parts.day ≤ monthLength parts.year.toNat parts.month.toNat) ∧
      (0 ≤ parts.hour ∧ parts.hour ≤ 23) ∧ (0 ≤ parts.minute ∧ parts.minute ≤ 59) ∧
      (0 ≤ parts.second ∧ parts.second ≤ 59) := by
  have last : (lastYear : Int) = 9999 := rfl
  unfold fault? at noFault
  split at noFault
  · contradiction
  · simp only [ite_eq_iff, reduceCtorEq, and_false, false_or, and_true] at noFault
    omega

namespace WallTime

theorem hour_lt (time : WallTime) : time.hour < 24 := by
  simp only [hour, secondOfDay]
  omega

theorem minute_lt (time : WallTime) : time.minute < 60 := by
  simp only [minute]
  omega

theorem second_lt (time : WallTime) : time.second < 60 := by
  simp only [second]
  omega

theorem date_bounds (time : WallTime) :
    1 ≤ time.date.year ∧ time.date.year ≤ 9999 ∧ 1 ≤ time.date.month ∧ time.date.month ≤ 12 ∧
      1 ≤ time.date.day ∧ time.date.day ≤ 31 := by
  obtain ⟨year, month, month_le, day, day_le⟩ := CivilDate.ofDay_bounds time.day
  exact ⟨year, CivilDate.ofDay_year_le time.day_lt, month, month_le, day,
    Nat.le_trans day_le (monthLength_le _ _)⟩

theorem fault?_parts (time : WallTime) : time.parts.fault? = none := by
  have bounds := time.date_bounds
  have length_le : time.date.day ≤ monthLength time.date.year time.date.month :=
    (CivilDate.ofDay_bounds time.day).2.2.2.2
  have hourBound := time.hour_lt
  have minuteBound := time.minute_lt
  have secondBound := time.second_lt
  apply DateParts.fault?_eq_none <;> simp only [parts, Int.toNat_natCast] <;> omega

theorem seconds_parts (time : WallTime) : time.parts.seconds = time.seconds := by
  have whole := dayNumber_ofDay time.day
  simp only [DateParts.seconds, parts, date, Int.toNat_natCast, whole]
  simp only [hour, minute, second, secondOfDay, day, seconds, microsPerDay, microsPerSecond]
  omega

theorem ofSeconds?_eq_some {count : Nat} {time : WallTime} :
    ofSeconds? count = some time ↔ time.seconds = count ∧ time.microsecond = 0 := by
  rw [ofSeconds?, ofMicros?_eq_some]
  simp only [seconds, microsecond, microsPerSecond]
  omega

theorem wallTime_parts {time : WallTime} (whole : time.microsecond = 0) :
    time.parts.wallTime = .ok time := by
  rw [DateParts.wallTime, fault?_parts, seconds_parts, ofSeconds?_eq_some.2 ⟨rfl, whole⟩]

variable {time : WallTime} {parts : DateParts}

theorem parts_of_seconds (noFault : parts.fault? = none) (made : time.seconds = parts.seconds) :
    time.parts = parts := by
  obtain ⟨year, month, day, hour, minute, second⟩ := DateParts.bounds_of_fault? noFault
  have isDate : CivilDate.IsDate ⟨parts.year.toNat, parts.month.toNat, parts.day.toNat⟩ :=
    ⟨by simp only; omega, by simp only; omega, by simp only; omega⟩
  have ofDay := isDate.ofDay_dayNumber
  rw [DateParts.seconds] at made
  have dayIs : time.day = dayNumber parts.year.toNat parts.month.toNat parts.day.toNat := by
    simp only [WallTime.day, seconds, microsPerDay, microsPerSecond] at made ⊢
    omega
  have secondIs : time.secondOfDay =
      parts.hour.toNat * 3600 + parts.minute.toNat * 60 + parts.second.toNat := by
    rw [secondOfDay]
    omega
  rw [WallTime.parts, date, dayIs, ofDay, WallTime.hour, WallTime.minute, WallTime.second, secondIs]
  cases parts
  simp only [DateParts.mk.injEq] at *
  omega

/-- Parts make a time exactly if they are the parts of that time, in whole seconds. -/
theorem wallTime_eq_ok : parts.wallTime = .ok time ↔ time.parts = parts ∧ time.microsecond = 0 := by
  constructor
  · intro made
    cases fault : parts.fault? with
    | some fault =>
        rw [DateParts.wallTime, fault] at made
        cases made
    | none =>
        have found : ofSeconds? parts.seconds = some time := by
          rw [DateParts.wallTime, fault] at made
          cases found : ofSeconds? parts.seconds with
          | none =>
              rw [found] at made
              cases made
          | some other =>
              rw [found] at made
              exact congrArg some (Except.ok.inj made)
        obtain ⟨seconds, whole⟩ := ofSeconds?_eq_some.1 found
        exact ⟨parts_of_seconds fault seconds, whole⟩
  · intro both
    obtain ⟨rfl, whole⟩ := both
    exact wallTime_parts whole

end WallTime

end Recurrence
