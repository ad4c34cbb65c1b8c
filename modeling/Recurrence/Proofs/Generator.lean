import Recurrence.Generator

namespace Recurrence

/-! How generators begin and what they give out.

`Course.Begins` lists what a course and a cursor take from a rule and a start; `Generator.Gives` lists
dates that are given out one after another, of which `Generator.take` takes a first part.  Where it
stops is what `Generator.Takes` tells apart.
-/

theorem Rule.Valid.one_le_count {rule : Rule} {count : Int} (valid : rule.Valid)
    (isCount : rule.ending = .afterCount count) : 1 ≤ count := by
  have ends := valid.2.1
  rwa [isCount] at ends

/-- What is read off a rule and a start before anything is given out. -/
structure Course.Begins (rule : Rule) (start : DateTime) (calendar : Calendar) (course : Course)
    (cursor : Cursor) : Prop where
  calendar_eq : course.calendar = calendar
  interval_eq : course.interval = rule.interval
  ending_eq : course.ending = rule.ending
  shows_last : course.last.map some =
    rule.ending.date?.map fun date => calendar.localize (.aware date)
  shows_start : calendar.localize start = some cursor.current
  count_eq : cursor.count = 0
  exhausted_eq : cursor.exhausted = false

theorem Course.begins_of_begin? {rule : Rule} {start : DateTime} {calendar : Calendar}
    {course : Course} {cursor : Cursor} (begun : begin? rule start calendar = some (course, cursor)) :
    Begins rule start calendar course cursor := by
  simp only [begin?, Option.pure_def, Option.bind_eq_bind] at begun
  split at begun
  · next noDate =>
      simp only [Option.bind_some, Option.bind_eq_some_iff, Option.some.injEq,
        Prod.mk.injEq] at begun
      obtain ⟨current, shows, rfl, rfl⟩ := begun
      exact ⟨rfl, rfl, rfl, by simp [noDate], shows, rfl, rfl⟩
  · next date isDate =>
      simp only [Option.bind_eq_some_iff, Option.map_eq_some_iff, Option.some.injEq,
        Prod.mk.injEq] at begun
      obtain ⟨_, ⟨last, showsLast, rfl⟩, current, shows, rfl, rfl⟩ := begun
      exact ⟨rfl, rfl, rfl, by simp [isDate, showsLast], shows, rfl, rfl⟩

theorem Course.exists_begin? {rule : Rule} {start : DateTime} {calendar : Calendar} {shown : Moment}
    (shows : calendar.localize start = some shown)
    (endInside : ∀ last ∈ rule.ending.date?, (calendar.localize (.aware last)).isSome = true) :
    ∃ course, begin? rule start calendar = some (course, ⟨shown, 0, false⟩) := by
  cases isDate : rule.ending.date? with
  | none => exact ⟨⟨calendar, rule.interval, rule.ending, none⟩, by simp [begin?, isDate, shows]⟩
  | some date =>
      obtain ⟨last, showsLast⟩ := Option.isSome_iff_exists.1 (endInside date isDate)
      exact ⟨⟨calendar, rule.interval, rule.ending, some last⟩,
        by simp [begin?, isDate, showsLast, shows]⟩

namespace Generator

/-- Dates that a generator gives out one after another. -/
inductive Gives : Generator → List Moment → Prop
  | nil {generator : Generator} : Gives generator []
  | cons {generator later : Generator} {date : Moment} {rest : List Moment}
      (answered : generator.advance = (.date date, later)) (gives : Gives later rest) :
      Gives generator (date :: rest)

/-- Which dates are taken: those given out one after another up to a number of them, to the end or to the
first one behind the bound. -/
inductive Takes (bound : Option Moment) : Nat → Generator → List Moment → Prop
  | enough {generator : Generator} : Takes bound 0 generator []
  | finished {wanted : Nat} {generator : Generator} (answered : generator.advance.1 = .finished) :
      Takes bound (wanted + 1) generator []
  | behind {wanted : Nat} {generator later : Generator} {date last : Moment}
      (answered : generator.advance = (.date date, later)) (isLast : last ∈ bound)
      (isBehind : last.isBefore date = true) : Takes bound (wanted + 1) generator []
  | date {wanted : Nat} {generator later : Generator} {date : Moment} {rest : List Moment}
      (answered : generator.advance = (.date date, later))
      (within : ∀ last ∈ bound, last.isBefore date = false)
      (takes : Takes bound wanted later rest) : Takes bound (wanted + 1) generator (date :: rest)

theorem takes_of_take {bound : Option Moment} {wanted : Nat} {generator : Generator}
    {dates : List Moment} (taken : (generator.take bound wanted).1 = .ok dates) :
    Takes bound wanted generator dates := by
  induction wanted generalizing generator dates with
  | zero =>
      cases taken
      exact .enough
  | succ wanted ih =>
      simp only [take] at taken
      split at taken
      · next finished =>
          cases taken
          exact .finished finished
      · contradiction
      · next date answered =>
          have answers : generator.advance = (.date date, generator.advance.2) :=
            Prod.ext answered rfl
          split at taken
          · next isBehind =>
              cases taken
              cases bound with
              | none => contradiction
              | some last => exact .behind answers rfl isBehind
          · next notBehind =>
              cases more : (take bound wanted generator.advance.2).1 with
              | error => simp [more, Except.map] at taken
              | ok rest =>
                  obtain rfl : date :: rest = dates := by simpa [more, Except.map] using taken
                  refine .date answers (fun last isLast => ?_) (ih more)
                  cases isLast
                  exact Bool.eq_false_iff.mpr notBehind

theorem Takes.gives {bound : Option Moment} {wanted : Nat} {generator : Generator}
    {dates : List Moment} (takes : Takes bound wanted generator dates) : generator.Gives dates := by
  induction takes with
  | enough => exact .nil
  | finished => exact .nil
  | behind => exact .nil
  | date answered _ _ ih => exact .cons answered ih

theorem gives_of_take {bound : Option Moment} {wanted : Nat} {generator : Generator}
    {dates : List Moment} (taken : (generator.take bound wanted).1 = .ok dates) :
    generator.Gives dates :=
  (takes_of_take taken).gives

end Generator

end Recurrence
