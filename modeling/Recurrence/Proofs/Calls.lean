import Recurrence.Generator

namespace Recurrence

/-! What the calls of a generator show.

A call shows its answer and, after it, the number of dates given out and whether the generator is
exhausted.  `Generator.Delivers` is what one call does to the dates still to come; where every state
of a generator delivers, its calls are those of the list of its dates: `Generator.calls_eq_giving`.
-/

/-- Whether an answer tells that a date lies outside the calendar. -/
def Answer.leaves : Answer → Bool
  | .broken (.outOfRange _) => true
  | .broken (.failed .behindCalendar) => true
  | _ => false

structure Call where
  answer : Answer
  count : Nat
  exhausted : Bool
deriving DecidableEq, Repr

/-- The calls that give out the dates of a list and finish behind them. -/
def Call.giving (given : Nat) : Nat → List Moment → List Call
  | 0, _ => []
  | calls + 1, [] => ⟨.finished, given, true⟩ :: giving given calls []
  | calls + 1, date :: rest => ⟨.date date, given + 1, false⟩ :: giving (given + 1) calls rest

namespace Generator

def call (generator : Generator) : Call where
  answer := generator.advance.1
  count := generator.advance.2.cursor.count
  exhausted := generator.advance.2.cursor.exhausted

def calls : Nat → Generator → List Call
  | 0, _ => []
  | number + 1, generator => generator.call :: calls number generator.advance.2

/-- Whether none of the first calls of a generator leaves the calendar. -/
def StaysInside (generator : Generator) (number : Nat) : Prop :=
  ∀ call ∈ generator.calls number, call.answer.leaves = false

instance (generator : Generator) (number : Nat) : Decidable (generator.StaysInside number) :=
  inferInstanceAs (Decidable (∀ call ∈ generator.calls number, call.answer.leaves = false))

/-- One call of a generator with some dates to come gives out the first of them or finishes behind
the last, unless it leaves the calendar. -/
inductive Delivers (Awaits : Generator → List Moment → Prop) (generator : Generator) :
    List Moment → Prop
  | left {dates : List Moment} (leaves : generator.advance.1.leaves = true) :
      Delivers Awaits generator dates
  | finished {later : Generator} (answered : generator.advance = (.finished, later))
      (count_eq : later.cursor.count = generator.cursor.count)
      (exhausted_eq : later.cursor.exhausted = true)
      (stays : later.advance = (.finished, later)) : Delivers Awaits generator []
  | date {date : Moment} {rest : List Moment} {later : Generator}
      (answered : generator.advance = (.date date, later))
      (count_eq : later.cursor.count = generator.cursor.count + 1)
      (exhausted_eq : later.cursor.exhausted = false) (awaits : Awaits later rest) :
      Delivers Awaits generator (date :: rest)

variable {generator : Generator} {Awaits : Generator → List Moment → Prop}

/-- What a call keeps and shows holds of all calls. -/
theorem forall_mem_calls (Keeps : Generator → Prop) (Shows : Call → Prop)
    (step : ∀ generator, Keeps generator → Shows generator.call ∧ Keeps generator.advance.2)
    (keeps : Keeps generator) (number : Nat) : ∀ call ∈ generator.calls number, Shows call := by
  induction number generalizing generator with
  | zero => exact nofun
  | succ number ih =>
      obtain ⟨shows, keepsLater⟩ := step generator keeps
      intro call member
      cases member with
      | head => exact shows
      | tail _ later => exact ih keepsLater call later

theorem advance_weekly_of_exhausted {walk : WeeklyWalk} (exhausted : walk.cursor.exhausted = true) :
    (weekly walk).advance = (.finished, weekly walk) := by
  simp only [advance, WeeklyWalk.advance, exhausted, if_true]

theorem advance_expanding_of_exhausted {expander : Expander}
    (exhausted : expander.cursor.exhausted = true) :
    (expanding expander).advance = (.finished, expanding expander) := by
  simp only [advance, Expander.advance, exhausted, if_true]

theorem calls_of_finished (exhausted : generator.cursor.exhausted = true)
    (stays : generator.advance = (.finished, generator)) (number : Nat) :
    generator.calls number = Call.giving generator.cursor.count number [] := by
  induction number with
  | zero => rfl
  | succ number ih =>
      rw [calls, call, Call.giving, stays]
      simp only [exhausted, ih]

/-- Where every call delivers, the calls are those of the list of dates to come, as long as none
leaves the calendar. -/
theorem calls_eq_giving (delivers : ∀ generator dates, Awaits generator dates →
      Delivers Awaits generator dates)
    {dates : List Moment} (awaits : Awaits generator dates) {number : Nat}
    (inside : generator.StaysInside number) :
    generator.calls number = Call.giving generator.cursor.count number dates := by
  induction number generalizing generator dates with
  | zero => rfl
  | succ number ih =>
      have first : generator.advance.1.leaves = false := inside _ List.mem_cons_self
      have others : generator.advance.2.StaysInside number :=
        fun call member => inside call (List.mem_cons_of_mem _ member)
      cases delivers generator dates awaits with
      | left leaves =>
          rw [leaves] at first
          exact Bool.noConfusion first
      | @finished later answered count_eq exhausted_eq stays =>
          rw [calls, call, answered, Call.giving]
          simp only [count_eq, exhausted_eq]
          rw [calls_of_finished exhausted_eq stays, count_eq]
      | @date date rest later answered count_eq exhausted_eq awaitsRest =>
          rw [answered] at others
          rw [calls, call, answered, Call.giving]
          simp only [count_eq, exhausted_eq]
          rw [ih awaitsRest others, count_eq]

end Generator

end Recurrence
