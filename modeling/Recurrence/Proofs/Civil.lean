import Recurrence.Civil

namespace Recurrence

/-! Years and months follow each other without a gap, and every day lies in one of them.

`daysBeforeYear_succ` and `daysBeforeMonth_succ` say where a year and a month end;
`CivilDate.ofDay_bounds` says that reading a day number gives a date that exists, and
`CivilDate.IsDate.ofDay_dayNumber` that every date that exists is read back from its number.
-/

theorem yearLength_bounds (year : Nat) : 365 ≤ yearLength year ∧ yearLength year ≤ 366 := by
  unfold yearLength
  split <;> omega

theorem daysBeforeYear_succ {year : Nat} (positive : 1 ≤ year) :
    daysBeforeYear (year + 1) = daysBeforeYear year + yearLength year := by
  obtain ⟨before, rfl⟩ := Nat.exists_eq_add_of_le' positive
  have fours : (before + 1) / 4 = before / 4 + if (before + 1) % 4 = 0 then 1 else 0 := by
    split <;> omega
  have centuries : (before + 1) / 100 = before / 100 + if (before + 1) % 100 = 0 then 1 else 0 := by
    split <;> omega
  have cycles : (before + 1) / 400 = before / 400 + if (before + 1) % 400 = 0 then 1 else 0 := by
    split <;> omega
  have fewer : before / 100 ≤ before / 4 := by omega
  have century : (before + 1) % 100 = 0 → (before + 1) % 4 = 0 := by omega
  have cycle : (before + 1) % 400 = 0 → (before + 1) % 100 = 0 := by omega
  simp only [daysBeforeYear, yearLength, isLeapYear, Nat.add_sub_cancel, fours, centuries, cycles]
  by_cases four : (before + 1) % 4 = 0
  · by_cases hundred : (before + 1) % 100 = 0
    · by_cases fourHundred : (before + 1) % 400 = 0
      · simp only [four, hundred, fourHundred, if_true]
        simp
        omega
      · simp [four, hundred, fourHundred]
        omega
    · have notCycle : ¬(before + 1) % 400 = 0 := fun last => hundred (cycle last)
      simp [four, hundred, notCycle]
      omega
  · have notCentury : ¬(before + 1) % 100 = 0 := fun last => four (century last)
    have notCycle : ¬(before + 1) % 400 = 0 := fun last => notCentury (cycle last)
    simp [four, notCentury, notCycle]
    omega

theorem daysBeforeYear_mono {first second : Nat} (positive : 1 ≤ first) (ordered : first ≤ second) :
    daysBeforeYear first ≤ daysBeforeYear second := by
  induction ordered with
  | refl => exact Nat.le_refl _
  | step reached ih =>
      rw [daysBeforeYear_succ (Nat.le_trans positive reached)]
      omega

theorem totalDays_take_succ {lengths : List Nat} {count : Nat} (inside : count < lengths.length) :
    totalDays (lengths.take (count + 1)) =
      totalDays (lengths.take count) + lengths.getD count 0 := by
  induction lengths generalizing count with
  | nil => simp at inside
  | cons length rest ih =>
      cases count with
      | zero => simp [totalDays]
      | succ count =>
          have short : count < rest.length := by simpa using inside
          have tail := ih short
          simp only [List.take_succ_cons, totalDays, List.getD_cons_succ] at tail ⊢
          omega

theorem daysBeforeMonth_succ {year month : Nat} (first : 1 ≤ month) (last : month ≤ 12) :
    daysBeforeMonth year (month + 1) = daysBeforeMonth year month + monthLength year month := by
  obtain ⟨index, rfl⟩ := Nat.exists_eq_add_of_le' first
  have inside : index < (monthLengths year).length := by
    simp only [monthLengths, List.length_cons, List.length_nil]
    omega
  simpa [daysBeforeMonth, monthLength] using totalDays_take_succ inside

theorem monthLength_le (year month : Nat) : monthLength year month ≤ 31 := by
  rw [monthLength, List.getD_eq_getElem?_getD]
  cases found : (monthLengths year)[month - 1]? with
  | none => decide
  | some length =>
      have member := List.mem_of_getElem? found
      simp only [monthLengths, List.mem_cons, List.not_mem_nil, or_false] at member
      rw [Option.getD_some]
      split at member <;> omega

theorem totalDays_monthLengths (year : Nat) : totalDays (monthLengths year) = yearLength year := by
  simp only [monthLengths, totalDays, yearLength]
  split <;> rfl

theorem daysBeforeMonth_thirteen (year : Nat) : daysBeforeMonth year 13 = yearLength year := by
  have whole : (monthLengths year).take 12 = monthLengths year :=
    List.take_of_length_le (by simp [monthLengths])
  simp only [daysBeforeMonth, Nat.reduceSub, whole, totalDays_monthLengths]

theorem daysBeforeMonth_mono {year first second : Nat} (positive : 1 ≤ first)
    (ordered : first ≤ second) (last : second ≤ 13) :
    daysBeforeMonth year first ≤ daysBeforeMonth year second := by
  induction ordered with
  | refl => exact Nat.le_refl _
  | step reached ih =>
      rw [daysBeforeMonth_succ (Nat.le_trans positive reached) (by omega)]
      exact Nat.le_trans (ih (by omega)) (Nat.le_add_right _ _)

theorem yearOfDay_index_lt (day : Nat) : (yearOfDay day).2 < yearLength (yearOfDay day).1 := by
  have bounds := yearLength_bounds (yearOfDay day).1
  by_cases early : (yearOfDay day).2 < 365
  · omega
  · -- Only the last day of a leap year has the index 365.
    have leap : isLeapYear (yearOfDay day).1 = true := by
      simp only [yearOfDay] at early ⊢
      simp only [isLeapYear, Bool.and_eq_true, Bool.or_eq_true, beq_iff_eq, bne_iff_ne]
      omega
    have long : yearLength (yearOfDay day).1 = 366 := by rw [yearLength, if_pos leap]
    have most : (yearOfDay day).2 ≤ 365 := by
      simp only [yearOfDay]
      omega
    omega

theorem splitMonths_lt {lengths : List Nat} {days : Nat} (inside : days < totalDays lengths) :
    (splitMonths lengths days).1 < lengths.length ∧
      (splitMonths lengths days).2 < lengths.getD (splitMonths lengths days).1 0 := by
  induction lengths generalizing days with
  | nil => simp [totalDays] at inside
  | cons length rest ih =>
      unfold splitMonths
      split
      · next short => exact ⟨by simp, by simpa using short⟩
      · next long =>
          have left : days - length < totalDays rest := by
            simp only [totalDays] at inside
            omega
          have tail := ih left
          exact ⟨by simpa using tail.1, by simpa using tail.2⟩

/-- Reading a day number gives a month and a day of the month that exist. -/
theorem CivilDate.ofDay_bounds (day : Nat) :
    1 ≤ (ofDay day).year ∧ 1 ≤ (ofDay day).month ∧ (ofDay day).month ≤ 12 ∧
      1 ≤ (ofDay day).day ∧
      (ofDay day).day ≤ monthLength (ofDay day).year (ofDay day).month := by
  have inside : (yearOfDay day).2 < totalDays (monthLengths (yearOfDay day).1) := by
    rw [totalDays_monthLengths]
    exact yearOfDay_index_lt day
  obtain ⟨month, index⟩ := splitMonths_lt inside
  have twelve : (monthLengths (yearOfDay day).1).length = 12 := rfl
  simp only [ofDay, monthLength, Nat.add_sub_cancel]
  refine ⟨by simp only [yearOfDay]; omega, by omega, by omega, by omega, by omega⟩

theorem CivilDate.ofDay_year_le {day : Nat} (inside : day < dayCount) :
    (ofDay day).year ≤ lastYear := by
  have first : 1 ≤ (yearOfDay day).1 := by simp only [yearOfDay]; omega
  have sum := daysBeforeYear_yearOfDay day
  refine Nat.le_of_not_lt fun late => ?_
  have behind : daysBeforeYear 10000 ≤ daysBeforeYear (yearOfDay day).1 :=
    daysBeforeYear_mono (by omega) late
  have total : daysBeforeYear 10000 = dayCount := rfl
  omega

/-- A date whose month and day exist. -/
structure CivilDate.IsDate (date : CivilDate) : Prop where
  year : 1 ≤ date.year
  month : 1 ≤ date.month ∧ date.month ≤ 12
  day : 1 ≤ date.day ∧ date.day ≤ monthLength date.year date.month

namespace CivilDate

variable {first second : CivilDate}

theorem isDate_ofDay (day : Nat) : (ofDay day).IsDate := by
  obtain ⟨year, month, month_le, day, day_le⟩ := ofDay_bounds day
  exact ⟨year, ⟨month, month_le⟩, day, day_le⟩

theorem IsDate.dayOfYear_lt (isDate : first.IsDate) {month : Nat} (later : first.month < month)
    (last : month ≤ 13) :
    daysBeforeMonth first.year first.month + (first.day - 1) < daysBeforeMonth first.year month := by
  have next := @daysBeforeMonth_succ first.year _ isDate.month.1 isDate.month.2
  have behind : daysBeforeMonth first.year (first.month + 1) ≤ daysBeforeMonth first.year month :=
    daysBeforeMonth_mono (Nat.le_succ_of_le isDate.month.1) later last
  have day := isDate.day
  omega

theorem IsDate.dayNumber_lt (isDate : first.IsDate) {year : Nat} (later : first.year < year) :
    dayNumber first.year first.month first.day < daysBeforeYear year := by
  have inYear := isDate.dayOfYear_lt (Nat.lt_succ_of_le isDate.month.2) (Nat.le_refl 13)
  rw [daysBeforeMonth_thirteen] at inYear
  have next := daysBeforeYear_succ isDate.year
  have behind : daysBeforeYear (first.year + 1) ≤ daysBeforeYear year :=
    daysBeforeYear_mono (Nat.le_succ_of_le isDate.year) later
  simp only [dayNumber]
  omega

/-- Dates that exist have different numbers. -/
theorem IsDate.eq_of_dayNumber (isDate : first.IsDate) (other : second.IsDate)
    (same : dayNumber first.year first.month first.day =
      dayNumber second.year second.month second.day) : first = second := by
  obtain ⟨year, month, day⟩ := first
  obtain ⟨otherYear, otherMonth, otherDay⟩ := second
  have sameYear : year = otherYear := by
    have before : ¬year < otherYear := fun earlier => by
      have less := isDate.dayNumber_lt earlier
      simp only [dayNumber] at same less
      omega
    have after : ¬otherYear < year := fun later => by
      have less := other.dayNumber_lt later
      simp only [dayNumber] at same less
      omega
    omega
  subst sameYear
  have sameMonth : month = otherMonth := by
    have before : ¬month < otherMonth := fun earlier => by
      have less := isDate.dayOfYear_lt earlier (Nat.le_succ_of_le other.month.2)
      simp only [dayNumber] at same less
      omega
    have after : ¬otherMonth < month := fun later => by
      have less := other.dayOfYear_lt later (Nat.le_succ_of_le isDate.month.2)
      simp only [dayNumber] at same less
      omega
    omega
  subst sameMonth
  have sameDay : day = otherDay := by
    have positive := isDate.day.1
    have otherPositive := other.day.1
    simp only [dayNumber] at same positive otherPositive
    omega
  rw [sameDay]

/-- Counting the days before a date that exists and reading the number back gives the date. -/
theorem IsDate.ofDay_dayNumber (isDate : first.IsDate) :
    ofDay (dayNumber first.year first.month first.day) = first :=
  (isDate_ofDay _).eq_of_dayNumber isDate (dayNumber_ofDay _)

end CivilDate

end Recurrence
