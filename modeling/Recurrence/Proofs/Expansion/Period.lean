import Recurrence.Expansion.Period
import Recurrence.Proofs.Civil
import Recurrence.Proofs.Expansion.Plan

namespace Recurrence

/-! Where the periods of a plan lie in time.

Every period runs from `Period.begin` to `Period.finish`, in seconds since midnight of day 0.  All its
times lie between the two (`Plan.mem_times_bounds`), and the period that follows begins where it ends
or later (`Plan.finish_le_begin`), so the times of a plan never go back.
-/

namespace Period

def begin (firstWeekday : Weekday) : Period → Nat
  | .hour inDay number => inDay * 86400 + number * 3600
  | .minute inDay inHour number => inDay * 86400 + inHour * 3600 + number * 60
  | period => (period.span firstWeekday).1 * 86400

def finish (firstWeekday : Weekday) : Period → Nat
  | .hour inDay number => inDay * 86400 + (number + 1) * 3600
  | .minute inDay inHour number => inDay * 86400 + inHour * 3600 + (number + 1) * 60
  | period => ((period.span firstWeekday).1 + (period.span firstWeekday).2) * 86400

def Proper : Period → Prop
  | .year number => 1 ≤ number
  | .month inYear number => 1 ≤ inYear ∧ 1 ≤ number ∧ number ≤ 12
  | _ => True

theorem proper_ofTime (frequency : Frequency) (time : WallTime) :
    (ofTime frequency time).Proper := by
  have bounds := CivilDate.ofDay_bounds time.day
  cases frequency with
  | yearly => exact bounds.1
  | monthly => exact ⟨bounds.1, bounds.2.1, bounds.2.2.1⟩
  | weekly | daily | hourly | minutely => exact True.intro

theorem begin_le_finish (firstWeekday : Weekday) (period : Period) :
    period.begin firstWeekday ≤ period.finish firstWeekday := by
  cases period <;> simp only [begin, finish] <;> omega

end Period

namespace Plan

variable {plan : Plan}

theorem mem_combinations {hours minutes seconds : List Nat} {time : Nat} :
    time ∈ combinations hours minutes seconds ↔
      ∃ hour ∈ hours, ∃ minute ∈ minutes, ∃ second ∈ seconds,
        hour * 3600 + minute * 60 + second = time := by
  simp [combinations]

theorem combinations_pairwise {hours minutes seconds : List Nat} (hoursOrdered : hours.Pairwise (· < ·))
    (minutesOrdered : minutes.Pairwise (· < ·)) (secondsOrdered : seconds.Pairwise (· < ·))
    (minute_lt : ∀ minute ∈ minutes, minute < 60) (second_lt : ∀ second ∈ seconds, second < 60) :
    (combinations hours minutes seconds).Pairwise (· < ·) := by
  unfold combinations
  rw [List.pairwise_flatMap]
  constructor
  · intro hour _
    rw [List.pairwise_flatMap]
    constructor
    · intro minute _
      rw [List.pairwise_map]
      exact secondsOrdered.imp fun less => by omega
    · refine minutesOrdered.imp_of_mem fun {first second} _ _ less => ?_
      intro time member other otherMember
      simp only [List.mem_map] at member otherMember
      obtain ⟨early, earlyMember, rfl⟩ := member
      obtain ⟨late, _, rfl⟩ := otherMember
      have bound := second_lt early earlyMember
      omega
  · refine hoursOrdered.imp_of_mem fun {first second} _ _ less => ?_
    intro time member other otherMember
    simp only [List.mem_flatMap, List.mem_map] at member otherMember
    obtain ⟨minute, minuteMember, early, earlyMember, rfl⟩ := member
    obtain ⟨_, _, late, _, rfl⟩ := otherMember
    have minuteBound := minute_lt minute minuteMember
    have bound := second_lt early earlyMember
    omega

theorem times_pairwise (ordered : plan.Ordered) (period : Period) :
    (plan.times period).Pairwise (· < ·) := by
  have one (number : Nat) : [number].Pairwise (· < ·) := List.pairwise_singleton _ _
  cases period with
  | hour day hour =>
      exact combinations_pairwise (one hour) ordered.minutes ordered.seconds ordered.minute_lt
        ordered.second_lt
  | minute day hour minute =>
      -- The minute of a period is a place on a dial, whose bound is not needed for one minute.
      unfold times combinations
      simp only [List.flatMap_cons, List.flatMap_nil, List.append_nil, List.pairwise_map]
      exact ordered.seconds.imp fun less => by omega
  | year | month | week | day =>
      exact combinations_pairwise ordered.hours ordered.minutes ordered.seconds ordered.minute_lt
        ordered.second_lt

/-- All times of a period lie between its begin and its end. -/
theorem mem_times_bounds (ordered : plan.Ordered) {period : Period} {day time : Nat}
    (dayIn : day ∈ period.days plan.firstWeekday) (timeIn : time ∈ plan.times period) :
    period.begin plan.firstWeekday ≤ day * 86400 + time ∧
      day * 86400 + time < period.finish plan.firstWeekday := by
  simp only [Period.days, List.mem_range'_1] at dayIn
  cases period with
  | hour inDay inHour =>
      simp only [times, mem_combinations, List.mem_singleton] at timeIn
      obtain ⟨_, rfl, minute, minuteIn, second, secondIn, rfl⟩ := timeIn
      have minuteBound := ordered.minute_lt minute minuteIn
      have secondBound := ordered.second_lt second secondIn
      simp only [Period.span, Period.begin, Period.finish] at *
      omega
  | minute inDay inHour inMinute =>
      simp only [times, mem_combinations, List.mem_singleton] at timeIn
      obtain ⟨_, rfl, _, rfl, second, secondIn, rfl⟩ := timeIn
      have secondBound := ordered.second_lt second secondIn
      simp only [Period.span, Period.begin, Period.finish] at *
      omega
  | year | month | week | day =>
      simp only [times, mem_combinations] at timeIn
      obtain ⟨hour, hourIn, minute, minuteIn, second, secondIn, rfl⟩ := timeIn
      have hourBound := ordered.hour_lt hour hourIn
      have minuteBound := ordered.minute_lt minute minuteIn
      have secondBound := ordered.second_lt second secondIn
      simp only [Period.begin, Period.finish]
      omega

theorem days_pairwise (ordered : plan.Ordered) (period : Period) :
    (period.days plan.firstWeekday).Pairwise fun first second =>
      ∀ time ∈ plan.times period, first * 86400 + time < second * 86400 := by
  cases period with
  | hour | minute => exact List.pairwise_singleton _ _
  | year | month | week | day =>
      refine List.Pairwise.imp (fun less time timeIn => ?_) List.pairwise_lt_range'
      simp only [times, mem_combinations] at timeIn
      obtain ⟨hour, hourIn, minute, minuteIn, second, secondIn, rfl⟩ := timeIn
      have hourBound := ordered.hour_lt hour hourIn
      have minuteBound := ordered.minute_lt minute minuteIn
      have secondBound := ordered.second_lt second secondIn
      omega

theorem turn_forward {interval dial : Nat} {allowed : List Nat} {steps turns value : Nat}
    {result : Nat × Nat} (positive : 0 < dial)
    (turned : turn interval dial allowed steps turns value = some result) :
    turns * dial + value + interval ≤ result.1 * dial + result.2 ∧ result.2 < dial := by
  induction steps generalizing turns value with
  | zero => simp [turn] at turned
  | succ steps ih =>
      have parts : (turns + (value + interval) / dial) * dial + (value + interval) % dial =
          turns * dial + value + interval := by
        have split := Nat.div_add_mod (value + interval) dial
        rw [Nat.add_mul, Nat.mul_comm ((value + interval) / dial)]
        omega
      simp only [turn] at turned
      split at turned
      · cases turned
        exact ⟨Nat.le_of_eq parts.symm, Nat.mod_lt _ positive⟩
      · have later := ih turned
        omega

theorem eq_of_onDay {day : Nat} (period : Nat → Period) {result : Period}
    (next : onDay day period = .period result) : result = period day := by
  unfold onDay at next
  split at next
  · exact (Next.period.inj next).symm
  · contradiction

theorem nextMinute_forward {steps day hour minute : Nat} {result : Period}
    (next : plan.nextMinute steps day hour minute = .period result) :
    ∃ laterDay laterHour laterMinute, result = .minute laterDay laterHour laterMinute ∧
      (day * 24 + hour) * 60 + minute + plan.interval ≤
        (laterDay * 24 + laterHour) * 60 + laterMinute := by
  induction steps generalizing day hour minute with
  | zero => simp [nextMinute] at next
  | succ steps ih =>
      cases turned : turn plan.interval 60 plan.minutes 60 0 minute with
      | none => simp [nextMinute, turned] at next
      | some place =>
          obtain ⟨hours, later⟩ := place
          have forward : 0 * 60 + minute + plan.interval ≤ hours * 60 + later :=
            (turn_forward (by decide) turned).1
          have dial := Nat.div_add_mod (hour + hours) 24
          simp only [nextMinute, turned] at next
          generalize (hour + hours) / 24 = days at *
          generalize (hour + hours) % 24 = inHour at *
          split at next
          · have same := eq_of_onDay (fun day => .minute day inHour later) next
            exact ⟨day + days, inHour, later, same, by omega⟩
          · obtain ⟨laterDay, laterHour, laterMinute, same, further⟩ := ih next
            exact ⟨laterDay, laterHour, laterMinute, same, by omega⟩

theorem month_finish_le_begin {year month months : Nat} (positive : 1 ≤ year) (first : 1 ≤ month)
    (last : month ≤ 12) (later : month ≤ months) :
    daysBeforeYear year + daysBeforeMonth year month + monthLength year month ≤
      daysBeforeYear (year + months / 12) +
        daysBeforeMonth (year + months / 12) (months % 12 + 1) := by
  rw [Nat.add_assoc, ← daysBeforeMonth_succ first last]
  by_cases sameYear : months < 12
  · rw [Nat.div_eq_of_lt sameYear, Nat.mod_eq_of_lt sameYear]
    simp only [Nat.add_zero]
    have monthsIncrease : daysBeforeMonth year (month + 1) ≤ daysBeforeMonth year (months + 1) :=
      daysBeforeMonth_mono (by omega) (by omega) (by omega)
    omega
  · have yearsIncrease : daysBeforeYear (year + 1) ≤ daysBeforeYear (year + months / 12) :=
      daysBeforeYear_mono (by omega) (by omega)
    have inYear : daysBeforeMonth year (month + 1) ≤ yearLength year := by
      rw [← daysBeforeMonth_thirteen]
      exact daysBeforeMonth_mono (by omega) (by omega) (Nat.le_refl _)
    rw [daysBeforeYear_succ positive] at yearsIncrease
    omega

/-- The next period begins where a period ends, or later. -/
theorem finish_le_begin {period later : Period} {skip : Bool} (positive : 1 ≤ plan.interval)
    (proper : period.Proper) (next : plan.next period skip = .period later) :
    period.finish plan.firstWeekday ≤ later.begin plan.firstWeekday ∧ later.Proper := by
  cases period with
  | year number =>
      simp only [Plan.next] at next
      split at next
      · cases next
        have increase : daysBeforeYear (number + 1) ≤ daysBeforeYear (number + plan.interval) :=
          daysBeforeYear_mono (by omega) (by omega)
        rw [daysBeforeYear_succ proper] at increase
        simp only [Period.finish, Period.begin, Period.span, Period.Proper] at proper ⊢
        omega
      · contradiction
  | month inYear number =>
      simp only [Plan.next] at next
      split at next
      · cases next
        obtain ⟨yearPositive, first, last⟩ := proper
        have increase := month_finish_le_begin yearPositive first last
          (show number ≤ number - 1 + plan.interval by omega)
        simp only [Period.finish, Period.begin, Period.span, Period.Proper]
        omega
      · contradiction
  | week first =>
      cases eq_of_onDay .week next
      have bound : (Weekday.ofDay first).daysSince plan.firstWeekday < 7 :=
        Nat.mod_lt _ (by decide)
      simp only [Period.finish, Period.begin, Period.span, Period.Proper, and_true]
      omega
  | day number =>
      cases eq_of_onDay .day next
      simp only [Period.finish, Period.begin, Period.span, Period.Proper, and_true]
      omega
  | hour inDay number =>
      simp only [Plan.next] at next
      split at next
      · contradiction
      · next days inHour turned =>
          cases eq_of_onDay (fun day => .hour day inHour) next
          have forward := (turn_forward (by decide) turned).1
          have later : number ≤ if skip = true then
              number + (23 - number) / plan.interval * plan.interval else number := by
            split <;> omega
          simp only [Period.finish, Period.begin, Period.Proper, and_true]
          omega
  | minute inDay inHour number =>
      simp only [Plan.next] at next
      obtain ⟨laterDay, laterHour, laterMinute, rfl, forward⟩ := nextMinute_forward next
      have later : number ≤ if skip = true then
          number + (1439 - (inHour * 60 + number)) / plan.interval * plan.interval else number := by
        split
        · exact Nat.le_add_right _ _
        · exact Nat.le_refl _
      simp only [Period.finish, Period.begin, Period.Proper, and_true]
      omega

end Plan

end Recurrence
