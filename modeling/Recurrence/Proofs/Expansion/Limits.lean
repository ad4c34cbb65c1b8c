import Recurrence.Expansion.Stream

namespace Recurrence

/-! The times of a plan lie between its start and its last time.

`Plan.Admits` is what a time at hand is judged by.  A stream never changes its plan, so every time that
it gives, after whatever it gave before, is one that the plan admits: `Stream.next_admits`.
-/

theorem WallTime.microsecond_of_ofSeconds? {seconds : Nat} {time : WallTime}
    (made : ofSeconds? seconds = some time) : time.microsecond = 0 := by
  have micros := ofMicros?_eq_some.1 made
  simp only [microsPerSecond] at micros
  simp only [microsecond, microsPerSecond]
  omega

namespace Plan

/-- A time has no fraction of a second and is neither before the start of a plan nor behind its last
time. -/
structure Admits (plan : Plan) (time : WallTime) : Prop where
  whole : time.microsecond = 0
  start_le : plan.start ≤ time
  le_last : ∀ last ∈ plan.last, time ≤ last

variable {plan : Plan} {time : WallTime}

theorem judge_admits {rest left : List DayTimes} {made : Option WallTime}
    (whole : ∀ wall ∈ made, wall.microsecond = 0)
    (judged : plan.judge rest made = some (.found time left)) : plan.Admits time := by
  cases made with
  | none => simp [judge] at judged
  | some wall =>
      simp only [judge] at judged
      split at judged
      · simp at judged
      · next notBehind =>
          split at judged
          · simp at judged
          · next notBefore =>
              cases judged
              refine ⟨whole _ rfl, Nat.not_lt.1 notBefore, fun last isLast => Nat.not_lt.1 fun behind => ?_⟩
              apply notBehind
              rw [isLast]
              exact decide_eq_true behind

theorem seekOn_admits {day : Nat} {others rest : List DayTimes} {times : List Nat}
    (found : plan.seekOn day others times = .found time rest) : plan.Admits time := by
  induction times with
  | nil => contradiction
  | cons first later ih =>
      unfold seekOn at found
      cases judged : plan.judge (⟨day, later⟩ :: others)
          (WallTime.ofSeconds? (day * 86400 + first)) with
      | none =>
          rw [judged, Option.getD_none] at found
          exact ih found
      | some sought =>
          rw [judged, Option.getD_some] at found
          subst found
          refine judge_admits (fun wall made => ?_) judged
          exact WallTime.microsecond_of_ofSeconds? made

theorem seek_admits {pending rest : List DayTimes}
    (found : plan.seek pending = .found time rest) : plan.Admits time := by
  induction pending with
  | nil => contradiction
  | cons first others ih =>
      unfold seek at found
      split at found
      · contradiction
      · split at found
        · exact ih found
        · exact seekOn_admits found

end Plan

namespace Stream

variable {time : WallTime}

theorem plan_enter (stream : Stream) (period : Period) (times : List Nat) :
    (stream.enter period times).plan = stream.plan := by
  unfold enter
  split <;> rfl

theorem plan_ofPlan (plan : Plan) : (ofPlan plan).plan = plan := by
  rw [ofPlan, plan_enter]

theorem plan_give (stream : Stream) (time : WallTime) (rest : List DayTimes) :
    (stream.give time rest).2.plan = stream.plan := by
  unfold give
  split
  · rfl
  · split <;> rfl

theorem plan_nextWithin (periods : Nat) (stream : Stream) :
    (nextWithin periods stream).2.plan = stream.plan := by
  induction periods generalizing stream with
  | zero => rfl
  | succ periods ih =>
      unfold nextWithin
      split
      · rfl
      · split
        · exact plan_give stream _ _
        · rfl
        · rfl
        · split
          · rw [ih, plan_enter]
          · rfl
          · rfl

theorem plan_next (stream : Stream) : stream.next.2.plan = stream.plan := by
  unfold next
  split
  · rfl
  · exact plan_nextWithin _ stream

theorem give_time {stream : Stream} {found : WallTime} {rest : List DayTimes}
    (given : (stream.give found rest).1 = .time time) : found = time := by
  unfold give at given
  split at given
  · exact StreamAnswer.time.inj given
  · split at given
    · contradiction
    · exact StreamAnswer.time.inj given

theorem nextWithin_admits {periods : Nat} {stream : Stream}
    (given : (nextWithin periods stream).1 = .time time) : stream.plan.Admits time := by
  induction periods generalizing stream with
  | zero => contradiction
  | succ periods ih =>
      unfold nextWithin at given
      split at given
      · contradiction
      · split at given
        · next found =>
            obtain rfl := give_time given
            exact Plan.seek_admits found
        · contradiction
        · contradiction
        · split at given
          · have admits := ih given
            rwa [plan_enter] at admits
          · contradiction
          · contradiction

/-- Every time that a stream gives lies between the start and the last time of its plan. -/
theorem next_admits {stream : Stream} (given : stream.next.1 = .time time) :
    stream.plan.Admits time := by
  unfold next at given
  split at given
  · contradiction
  · exact nextWithin_admits given

end Stream

end Recurrence
