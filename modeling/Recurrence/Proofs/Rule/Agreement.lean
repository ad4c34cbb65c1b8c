import Recurrence.Rule

namespace Recurrence

/-! Rules that are rebuilt part by part.

A rule that takes over all restrictions of another one is that rule but for its end
(`Rule.foldl_adopt_restrictions`), because the parts that are left name no values.  Of the ends only
the last dates can be equal without being the same.
-/

namespace Ending

variable {first second : Ending}

/-- An end without a date is equal to itself alone. -/
theorem eq_of_same (dateless : first.date? = none) (same : first.same second = true) :
    second = first := by
  cases first with
  | never =>
      cases second with
      | never => rfl
      | afterCount | afterDate => contradiction
  | afterCount count =>
      cases second with
      | afterCount other => exact congrArg Ending.afterCount (beq_iff_eq.mp same).symm
      | never | afterDate => contradiction
  | afterDate date => contradiction

end Ending

namespace Rule

def adopt (source rule : Rule) (part : Part) : Rule :=
  match part with
  | .weekday => { rule with weekdays := source.weekdays }
  | part => rule.withNumbers part (source.numbers part)

/-- Two rules name the same values for a part. -/
def AgreesOn (source rule : Rule) (part : Part) : Prop :=
  source.numbers part = rule.numbers part ∧ (part = .weekday → source.weekdays = rule.weekdays)

variable {source rule : Rule} {part : Part}

theorem agreesOn_adopt_self (source rule : Rule) (part : Part) :
    source.AgreesOn (source.adopt rule part) part := by
  cases part with
  | weekday => exact ⟨rfl, fun _ => rfl⟩
  | _ => exact ⟨rfl, nofun⟩

theorem AgreesOn.adopt (agrees : source.AgreesOn rule part) (other : Part) :
    source.AgreesOn (source.adopt rule other) part := by
  by_cases same : other = part
  · rw [same]
    exact agreesOn_adopt_self source rule part
  · cases other <;> cases part <;> first
      | exact absurd rfl same
      | exact agrees
      | exact ⟨agrees.1, nofun⟩

theorem agreesOn_foldl_adopt {parts : List Part} (agrees : part ∈ parts ∨ source.AgreesOn rule part) :
    source.AgreesOn (parts.foldl source.adopt rule) part := by
  induction parts generalizing rule with
  | nil => exact agrees.resolve_left List.not_mem_nil
  | cons first rest ih =>
      refine ih ?_
      rcases agrees with listed | already
      · rcases List.mem_cons.1 listed with rfl | later
        · exact .inr (agreesOn_adopt_self source rule part)
        · exact .inl later
      · exact .inr (already.adopt first)

theorem foldl_adopt_head (source rule : Rule) (parts : List Part) :
    (parts.foldl source.adopt rule).frequency = rule.frequency ∧
      (parts.foldl source.adopt rule).interval = rule.interval ∧
      (parts.foldl source.adopt rule).ending = rule.ending := by
  induction parts generalizing rule with
  | nil => exact ⟨rfl, rfl, rfl⟩
  | cons part rest ih =>
      obtain ⟨frequency, interval, ending⟩ := ih (source.adopt rule part)
      have kept : (source.adopt rule part).frequency = rule.frequency ∧
          (source.adopt rule part).interval = rule.interval ∧
          (source.adopt rule part).ending = rule.ending := by
        cases part <;> exact ⟨rfl, rfl, rfl⟩
      exact ⟨frequency.trans kept.1, interval.trans kept.2.1, ending.trans kept.2.2⟩

theorem numbers_eq_nil (restricted : rule.restricts part = false) : rule.numbers part = [] := by
  cases part with
  | weekday => rfl
  | _ => simpa [restricts] using restricted

theorem weekdays_eq_nil (restricted : rule.restricts .weekday = false) : rule.weekdays = [] := by
  simpa [restricts] using restricted

/-- A rule that takes over all restrictions agrees on all parts. -/
theorem agreesOn_restrictions (source : Rule) (frequency : Frequency) (interval : Int)
    (ending : Ending) (part : Part) :
    source.AgreesOn (source.restrictions.foldl source.adopt { frequency, interval, ending }) part := by
  refine agreesOn_foldl_adopt ?_
  cases restricted : source.restricts part with
  | true => exact .inl (List.mem_filter.2 ⟨Part.mem_all part, restricted⟩)
  | false =>
      have none : ({ frequency, interval, ending } : Rule).numbers part = [] := by cases part <;> rfl
      refine .inr ⟨(numbers_eq_nil restricted).trans none.symm, fun isWeekday => ?_⟩
      rw [isWeekday] at restricted
      exact weekdays_eq_nil restricted

theorem eq_of_agreesOn (frequency : source.frequency = rule.frequency)
    (interval : source.interval = rule.interval) (ending : source.ending = rule.ending)
    (agree : ∀ part, source.AgreesOn rule part) : source = rule := by
  have weekdays := (agree .weekday).2 rfl
  have number (part : Part) := (agree part).1
  cases source
  cases rule
  congr
  · exact number .second
  · exact number .minute
  · exact number .hour
  · exact number .monthDay
  · exact number .yearDay
  · exact number .week
  · exact number .month
  · exact number .position

/-- Taking over all restrictions rebuilds a rule, but for the end that was there before. -/
theorem foldl_adopt_restrictions (source : Rule) (ending : Ending) :
    source.restrictions.foldl source.adopt
        { frequency := source.frequency, interval := source.interval, ending } =
      { source with ending } := by
  obtain ⟨sameFrequency, sameInterval, sameEnding⟩ := foldl_adopt_head source
    { frequency := source.frequency, interval := source.interval, ending } source.restrictions
  refine Eq.symm (@eq_of_agreesOn { source with ending } _ sameFrequency.symm sameInterval.symm
    sameEnding.symm fun part => ?_)
  have agrees := agreesOn_restrictions source source.frequency source.interval ending part
  cases part <;> exact agrees

/-- Rules that differ in their ends alone are equal if these are. -/
theorem same_of_ending {source : Rule} {ending : Ending} (same : source.ending.same ending = true) :
    source.same { source with ending } = true := by
  have all := source.same_refl
  simp only [Rule.same, Bool.and_eq_true] at all ⊢
  obtain ⟨⟨⟨head, _⟩, weekdays⟩, numbers⟩ := all
  exact ⟨⟨⟨head, same⟩, weekdays⟩, numbers⟩

theorem ending_same {first second : Rule} (same : first.same second = true) :
    first.ending.same second.ending = true := by
  simp only [Rule.same, Bool.and_eq_true] at same
  exact same.1.1.2

end Rule

end Recurrence
