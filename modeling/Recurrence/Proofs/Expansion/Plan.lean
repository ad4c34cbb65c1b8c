import Recurrence.Expansion.Plan

namespace Recurrence

/-! The times of day of a plan are times of a day, in increasing order.

`Plan.Ordered` is what the order of a plan's times rests on; `Plan.ofRule_ordered` says that the plan
of every valid rule has it, except that leap seconds must be left out.
-/

namespace Plan

/-- The times of day of a plan are times of a day, in increasing order, and its interval is positive. -/
structure Ordered (plan : Plan) : Prop where
  interval : 1 ≤ plan.interval
  hours : plan.hours.Pairwise (· < ·)
  minutes : plan.minutes.Pairwise (· < ·)
  seconds : plan.seconds.Pairwise (· < ·)
  hour_lt : ∀ hour ∈ plan.hours, hour < 24
  minute_lt : ∀ minute ∈ plan.minutes, minute < 60
  second_lt : ∀ second ∈ plan.seconds, second < 60

theorem ordered_toNat_le {rule : Rule} (valid : rule.Valid) (part : Part) {value : Nat}
    (member : value ∈ ordered ((rule.numbers part).map Int.toNat)) :
    (value : Int) ≤ max 0 part.domain.greatest := by
  simp only [mem_ordered, List.mem_map] at member
  obtain ⟨number, inRule, rfl⟩ := member
  have inDomain := valid.2.2.2 part part.mem_all number inRule
  simp only [Domain.has, Bool.and_eq_true, decide_eq_true_eq] at inDomain
  omega

/-- Hours and minutes are chosen in one way: from those that the rule gives, without those that steps
of the interval never reach, or from the start when the rule gives none. -/
theorem chosen_ordered {given chosen : List Nat} {reached : Nat → Bool} {first bound : Nat}
    {own counted : Prop} [Decidable own] [Decidable counted] (first_lt : first < bound)
    (increasing : given.Pairwise (· < ·)) (given_lt : ∀ value ∈ given, value < bound)
    (made : (if given.isEmpty then some (if own then [] else [first])
      else if counted then
        if (given.filter reached).isEmpty then none else some (given.filter reached)
      else some given) = some chosen) :
    chosen.Pairwise (· < ·) ∧ ∀ value ∈ chosen, value < bound := by
  split at made
  · cases made
    split
    · exact ⟨List.Pairwise.nil, by simp⟩
    · exact ⟨List.pairwise_singleton _ _, by simpa using first_lt⟩
  · split at made
    · split at made
      · contradiction
      · cases made
        exact ⟨increasing.filter _, fun value member => given_lt value (List.mem_filter.1 member).1⟩
    · cases made
      exact ⟨increasing, given_lt⟩

theorem hoursOf_ordered {rule : Rule} {start : WallTime} {hours : List Nat} (valid : rule.Valid)
    (made : hoursOf rule start = some hours) :
    hours.Pairwise (· < ·) ∧ ∀ hour ∈ hours, hour < 24 := by
  have first_lt : start.hour < 24 := by
    simp only [WallTime.hour, WallTime.secondOfDay]
    omega
  refine chosen_ordered first_lt (ordered_pairwise _) (fun hour member => ?_) made
  have inDomain := ordered_toNat_le valid .hour member
  simp only [Part.domain] at inDomain
  omega

theorem minutesOf_ordered {rule : Rule} {start : WallTime} {minutes : List Nat}
    (valid : rule.Valid) (made : minutesOf rule start = some minutes) :
    minutes.Pairwise (· < ·) ∧ ∀ minute ∈ minutes, minute < 60 := by
  have first_lt : start.minute < 60 := by
    simp only [WallTime.minute]
    omega
  refine chosen_ordered first_lt (ordered_pairwise _) (fun minute member => ?_) made
  have inDomain := ordered_toNat_le valid .minute member
  simp only [Part.domain] at inDomain
  omega

theorem secondsOf_ordered {rule : Rule} (valid : rule.Valid) (noLeap : 60 ∉ rule.seconds)
    (start : WallTime) :
    (secondsOf rule start).Pairwise (· < ·) ∧ ∀ second ∈ secondsOf rule start, second < 60 := by
  simp only [secondsOf]
  split
  · have first_lt : start.second < 60 := by
      simp only [WallTime.second]
      omega
    exact ⟨List.pairwise_singleton _ _, by simpa using first_lt⟩
  · refine ⟨ordered_pairwise _, fun second member => ?_⟩
    have inDomain := ordered_toNat_le valid .second member
    have notLeap : second ≠ 60 := by
      rintro rfl
      simp only [mem_ordered, List.mem_map] at member
      obtain ⟨number, inRule, same⟩ := member
      obtain rfl : number = 60 := by omega
      exact noLeap inRule
    simp only [Part.domain] at inDomain
    omega

/-- The plan of a valid rule without leap seconds is ordered. -/
theorem ofRule_ordered {rule : Rule} {start : WallTime} {last : Option WallTime}
    {firstWeekday : Weekday} {plan : Plan} (valid : rule.Valid) (noLeap : 60 ∉ rule.seconds)
    (made : ofRule rule start last firstWeekday = some plan) : plan.Ordered := by
  simp only [ofRule, Option.pure_def, Option.bind_eq_bind, Option.bind_eq_some_iff,
    Option.some.injEq] at made
  obtain ⟨hours, hoursMade, minutes, minutesMade, rfl⟩ := made
  obtain ⟨hoursIncrease, hour_lt⟩ := hoursOf_ordered valid hoursMade
  obtain ⟨minutesIncrease, minute_lt⟩ := minutesOf_ordered valid minutesMade
  obtain ⟨secondsIncrease, second_lt⟩ := secondsOf_ordered valid noLeap start.truncate
  have positive := valid.1
  exact {
    interval := by simp only; omega
    hours := hoursIncrease, minutes := minutesIncrease, seconds := secondsIncrease
    hour_lt, minute_lt, second_lt }

end Plan

end Recurrence
