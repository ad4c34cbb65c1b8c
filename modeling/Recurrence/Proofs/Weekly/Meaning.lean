import Recurrence.Generator

namespace Recurrence

/-! The dates that a weekly rule means, told without a walk.

Weeks are counted from the one of the start.  A day is selected when its week is a multiple of the
interval and its weekday is one of those wanted; `WeeklyWalk.meaning` lists the selected days in order
and cuts them off at the end of the rule.
-/

def Ending.cut (given : Nat) (dates : List Moment) : Ending → List Moment
  | .never => dates
  | .afterCount count => dates.take (count.toNat - given)
  | .afterDate last => dates.takeWhile fun date => decide (date ≤ last)

def Ending.Allows (given : Nat) (date : Moment) : Ending → Prop
  | .never => True
  | .afterCount count => given < count
  | .afterDate last => date ≤ last

namespace Ending

variable {ending : Ending} {given : Nat} {date : Moment}

@[simp]
theorem cut_nil (ending : Ending) (given : Nat) : ending.cut given [] = [] := by
  cases ending <;> simp [cut]

theorem cut_cons (allowed : ending.Allows given date) (rest : List Moment) :
    ending.cut given (date :: rest) = date :: ending.cut (given + 1) rest := by
  cases ending with
  | never => rfl
  | afterCount count =>
      have fewer : (given : Int) < count := allowed
      obtain ⟨more, left⟩ : ∃ more, count.toNat - given = more + 1 :=
        ⟨count.toNat - given - 1, by omega⟩
      have less : count.toNat - (given + 1) = more := by omega
      rw [cut, cut, left, less, List.take_succ_cons]
  | afterDate last =>
      have before : date ≤ last := allowed
      simp only [cut, List.takeWhile_cons, before, decide_true, if_true]

theorem cut_sublist (ending : Ending) (given : Nat) (dates : List Moment) :
    (ending.cut given dates).Sublist dates := by
  cases ending with
  | never => exact List.Sublist.refl dates
  | afterCount count => exact List.take_sublist _ _
  | afterDate last => exact List.takeWhile_sublist _

theorem cut_eq_nil {dates : List Moment} (refused : ¬ending.Allows given date)
    (later : ∀ other ∈ dates, date ≤ other) : ending.cut given dates = [] := by
  cases ending with
  | never => exact absurd True.intro refused
  | afterCount count =>
      have many : ¬(given : Int) < count := refused
      have noMore : count.toNat - given = 0 := by omega
      rw [cut, noMore, List.take_zero]
  | afterDate last =>
      cases dates with
      | nil => rfl
      | cons first rest =>
          have behind : ¬first ≤ last := fun before =>
            refused (Int.le_trans (later first List.mem_cons_self) before)
          simp only [cut, List.takeWhile_cons, behind, decide_false, Bool.false_eq_true, if_false]

end Ending

namespace WeeklyWalk

def candidate (start : Moment) (days : Nat) : Option Moment :=
  (start.wall.addDays days).map fun wall => { start with wall }

/-- The number of the week some days after a start.  The start lies in week 0. -/
def weekNumber (firstWeekday : Weekday) (start : Moment) (days : Nat) : Nat :=
  (days + start.wall.weekday.daysSince firstWeekday) / 7

def isActive (interval : Int) (firstWeekday : Weekday) (start : Moment) (days : Nat) : Bool :=
  decide (interval ∣ weekNumber firstWeekday start days)

/-- The weekdays that a rule asks for, or that of the start when it asks for none. -/
def wanted (rule : Rule) (start : Moment) : List Weekday :=
  if rule.weekdays.isEmpty then [start.wall.weekday] else rule.weekdays.map DayEntry.weekday

/-- The date some days after a start if a rule selects it. -/
def selected (rule : Rule) (firstWeekday : Weekday) (start : Moment) (days : Nat) : Option Moment :=
  (candidate start days).filter fun date =>
    isActive rule.interval firstWeekday start days && (wanted rule start).contains date.wall.weekday

def selection (rule : Rule) (firstWeekday : Weekday) (start : Moment) (first last : Nat) :
    List Moment :=
  (List.range' first (last - first)).filterMap (selected rule firstWeekday start)

/-- The dates that a weekly rule means.  No date lies more days after the start than the calendar
has. -/
def meaning (rule : Rule) (firstWeekday : Weekday) (start : Moment) : List Moment :=
  rule.ending.cut 0 (selection rule firstWeekday start 0 dayCount)

variable {rule : Rule} {firstWeekday : Weekday} {start date : Moment} {days next : Nat}

theorem candidate_eq_some :
    candidate start days = some date ↔
      (date.wall.micros : Int) = start.wall.micros + days * 86400000000 ∧
        date.offset = start.offset ∧ date.zone = start.zone := by
  simp only [candidate, WallTime.addDays, WallTime.addMicros, Option.map_eq_some_iff,
    WallTime.ofMicros?_eq_some]
  constructor
  · rintro ⟨wall, micros, rfl⟩
    exact ⟨micros, rfl, rfl⟩
  · rintro ⟨micros, offset, zone⟩
    refine ⟨date.wall, micros, ?_⟩
    cases date
    simp only at offset zone ⊢
    rw [offset, zone]

theorem candidate_zero : candidate start 0 = some start :=
  candidate_eq_some.2 ⟨by omega, rfl, rfl⟩

theorem days_lt_of_candidate (inside : candidate start days = some date) : days < dayCount := by
  have micros := (candidate_eq_some.1 inside).1
  have bound := date.wall.micros_lt
  simp only [calendarMicros, dayCount] at bound ⊢
  omega

theorem candidate_le {other : Moment} {later : Nat} (first : candidate start days = some date)
    (second : candidate start later = some other) (less : days ≤ later) : date ≤ other := by
  obtain ⟨micros, offset, _⟩ := candidate_eq_some.1 first
  obtain ⟨otherMicros, otherOffset, _⟩ := candidate_eq_some.1 second
  change (date.wall.micros : Int) - date.offset ≤ other.wall.micros - other.offset
  rw [offset, otherOffset]
  omega

theorem candidate_lt {other : Moment} {later : Nat} (first : candidate start days = some date)
    (second : candidate start later = some other) (less : days < later) : date < other := by
  obtain ⟨micros, offset, _⟩ := candidate_eq_some.1 first
  obtain ⟨otherMicros, otherOffset, _⟩ := candidate_eq_some.1 second
  change (date.wall.micros : Int) - date.offset < other.wall.micros - other.offset
  rw [offset, otherOffset]
  omega

theorem index_of_candidate (inside : candidate start days = some date) :
    date.wall.weekday.index = (start.wall.weekday.index + days) % 7 := by
  have micros := (candidate_eq_some.1 inside).1
  simp only [WallTime.weekday, Weekday.index_ofDay, WallTime.day, microsPerDay]
  omega

/-- The active day after an active one: the next day, or the first day of the next active week. -/
def following (interval : Int) (firstWeekday : Weekday) (start : Moment) (days : Nat) : Nat :=
  if (days + start.wall.weekday.daysSince firstWeekday) % 7 = 6 then
    days + 1 + 7 * (interval.toNat - 1)
  else days + 1

theorem lt_following (interval : Int) (firstWeekday : Weekday) (start : Moment) (days : Nat) :
    days < following interval firstWeekday start days := by
  unfold following
  split <;> omega

theorem isActive_zero (interval : Int) : isActive interval firstWeekday start 0 = true := by
  have inWeek : start.wall.weekday.daysSince firstWeekday < 7 := Nat.mod_lt _ (by decide)
  have first : weekNumber firstWeekday start 0 = 0 := by
    simp only [weekNumber]
    omega
  rw [isActive, first]
  exact decide_eq_true (Int.dvd_zero _)

theorem weekNumber_following {interval : Int} (positive : 1 ≤ interval) :
    weekNumber firstWeekday start (following interval firstWeekday start days) =
        weekNumber firstWeekday start days ∧
      following interval firstWeekday start days = days + 1 ∨
    (weekNumber firstWeekday start (following interval firstWeekday start days) : Int) =
        weekNumber firstWeekday start days + interval ∧
      ∀ between, days < between → between < following interval firstWeekday start days →
        (weekNumber firstWeekday start days : Int) < weekNumber firstWeekday start between ∧
          (weekNumber firstWeekday start between : Int) <
            weekNumber firstWeekday start days + interval := by
  unfold following weekNumber
  generalize start.wall.weekday.daysSince firstWeekday = offset
  split
  · next last =>
      refine .inr ⟨by omega, fun between after before => ⟨by omega, by omega⟩⟩
  · next notLast => exact .inl ⟨by omega, rfl⟩

/-- Between an active day and the following one lies no other active day. -/
theorem isActive_following {interval : Int} (positive : 1 ≤ interval)
    (active : isActive interval firstWeekday start days = true) :
    isActive interval firstWeekday start (following interval firstWeekday start days) = true ∧
      ∀ between, days < between → between < following interval firstWeekday start days →
        isActive interval firstWeekday start between = false := by
  simp only [isActive, decide_eq_true_eq, decide_eq_false_iff_not] at active ⊢
  rcases weekNumber_following positive with ⟨sameWeek, nextDay⟩ | ⟨laterWeek, skipped⟩
  · rw [sameWeek]
    exact ⟨active, fun between after before => by omega⟩
  · rw [laterWeek]
    refine ⟨Int.dvd_add active (Int.dvd_refl _), fun between after before divides => ?_⟩
    obtain ⟨more, less⟩ := skipped between after before
    have multiple := Int.dvd_sub divides active
    have least := Int.le_of_dvd (by omega) multiple
    omega

theorem selected_eq_some :
    selected rule firstWeekday start days = some date ↔
      candidate start days = some date ∧ isActive rule.interval firstWeekday start days = true ∧
        (wanted rule start).contains date.wall.weekday = true := by
  simp only [selected, Option.filter_eq_some_iff, Bool.and_eq_true]

theorem selected_eq_none (inside : candidate start days = some date)
    (unwanted : (wanted rule start).contains date.wall.weekday = false) :
    selected rule firstWeekday start days = none := by
  cases found : selected rule firstWeekday start days with
  | none => rfl
  | some other =>
      obtain ⟨otherInside, _, weekday⟩ := selected_eq_some.1 found
      obtain rfl := Option.some.inj (inside.symm.trans otherInside)
      exact absurd weekday (Bool.eq_false_iff.1 unwanted)

theorem mem_selection {first last : Nat} (member : date ∈ selection rule firstWeekday start first last) :
    ∃ days, first ≤ days ∧ candidate start days = some date := by
  simp only [selection, List.mem_filterMap, List.mem_range'_1] at member
  obtain ⟨days, ⟨reached, _⟩, found⟩ := member
  exact ⟨days, reached, (selected_eq_some.1 found).1⟩

theorem selection_append {first middle last : Nat} (early : first ≤ middle) (late : middle ≤ last) :
    selection rule firstWeekday start first last =
      selection rule firstWeekday start first middle ++
        selection rule firstWeekday start middle last := by
  obtain ⟨count, rfl⟩ := Nat.exists_eq_add_of_le early
  obtain ⟨more, rfl⟩ := Nat.exists_eq_add_of_le late
  have whole : first + count + more - first = count + more := by omega
  rw [selection, selection, selection, ← List.filterMap_append, whole, Nat.add_sub_cancel_left,
    Nat.add_sub_cancel_left, List.range'_append_1]

theorem selection_eq_nil {first last : Nat}
    (inactive : ∀ between, first ≤ between → between < last →
      isActive rule.interval firstWeekday start between = false) :
    selection rule firstWeekday start first last = [] := by
  refine List.filterMap_eq_nil_iff.2 fun between member => ?_
  obtain ⟨after, before⟩ := List.mem_range'_1.1 member
  have outside := inactive between after (by omega)
  cases found : selected rule firstWeekday start between with
  | none => rfl
  | some date => exact absurd (selected_eq_some.1 found).2.1 (by simp [outside])

/-- From an active day up to the following one only the active day itself may be selected. -/
theorem selection_following (positive : 1 ≤ rule.interval)
    (active : isActive rule.interval firstWeekday start days = true) :
    selection rule firstWeekday start days (following rule.interval firstWeekday start days) =
      (selected rule firstWeekday start days).toList := by
  have others : selection rule firstWeekday start (days + 1)
      (following rule.interval firstWeekday start days) = [] :=
    selection_eq_nil fun between after before =>
      (isActive_following positive active).2 between after before
  rw [selection_append (Nat.le_succ days) (lt_following rule.interval firstWeekday start days), others,
    List.append_nil, selection, Nat.succ_sub (Nat.le_refl days), Nat.sub_self, List.range'_one]
  cases found : selected rule firstWeekday start days <;> simp [found]

/-- The selected dates from an active day on are that day's, if it is selected, and those from the
following day on. -/
theorem selection_eq_append (positive : 1 ≤ rule.interval)
    (active : isActive rule.interval firstWeekday start days = true)
    (inside : following rule.interval firstWeekday start days ≤ dayCount) :
    selection rule firstWeekday start days dayCount =
      (selected rule firstWeekday start days).toList ++
        selection rule firstWeekday start (following rule.interval firstWeekday start days)
          dayCount := by
  have forward := lt_following rule.interval firstWeekday start days
  rw [← selection_following positive active]
  exact selection_append (Nat.le_of_lt forward) inside

theorem selection_pairwise (first last : Nat) :
    (selection rule firstWeekday start first last).Pairwise (· < ·) := by
  refine List.Pairwise.filterMap _ ?_ List.pairwise_lt_range'
  intro days later less date found other foundLater
  exact candidate_lt (selected_eq_some.1 found).1 (selected_eq_some.1 foundLater).1 less

theorem meaning_pairwise (rule : Rule) (firstWeekday : Weekday) (start : Moment) :
    (meaning rule firstWeekday start).Pairwise (· < ·) := by
  have increasing : (selection rule firstWeekday start 0 dayCount).Pairwise (· < ·) :=
    selection_pairwise 0 dayCount
  exact increasing.sublist (rule.ending.cut_sublist 0 _)

end WeeklyWalk

end Recurrence
