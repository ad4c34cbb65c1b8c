import Recurrence.Expansion.Stream
import Recurrence.Proofs.Expansion.Period

namespace Recurrence

/-! The times of a stream increase.

`Stream.Ordered low` says that a stream will not give out a time before the second `low`.  Entering a
period that begins at `low` or later establishes it and giving out a time moves `low` behind that time,
so no time is given out twice and none after a later one.
-/

def pendingSeconds (pending : List DayTimes) : List Nat :=
  pending.flatMap fun entry => entry.times.map fun time => entry.day * 86400 + time

@[simp]
theorem pendingSeconds_nil : pendingSeconds [] = [] := rfl

@[simp]
theorem pendingSeconds_cons (first : DayTimes) (others : List DayTimes) :
    pendingSeconds (first :: others) =
      (first.times.map fun time => first.day * 86400 + time) ++ pendingSeconds others := rfl

namespace Plan

variable {plan : Plan}

theorem pick?_mem {values : List α} {index : Int} {value : α}
    (picked : pick? values index = some value) : value ∈ values := by
  unfold pick? at picked
  split at picked
  · split at picked
    · exact List.mem_of_getElem? picked
    · contradiction
  · exact List.mem_of_getElem? picked

theorem atPosition_mem {days times : List Nat} {position : Int} {day time : Nat}
    (found : atPosition days times position = some (day, time)) : day ∈ days ∧ time ∈ times := by
  simp only [atPosition, Option.pure_def, Option.bind_eq_bind, Option.bind_eq_some_iff,
    Option.some.injEq, Prod.mk.injEq] at found
  obtain ⟨_, dayPicked, _, timePicked, rfl, rfl⟩ := found
  exact ⟨pick?_mem dayPicked, List.mem_of_getElem? timePicked⟩

theorem pendingSeconds_split (seconds : List Nat) :
    pendingSeconds (seconds.map fun second => ⟨second / 86400, [second % 86400]⟩) = seconds := by
  induction seconds with
  | nil => rfl
  | cons second rest ih =>
      have whole : second / 86400 * 86400 + second % 86400 = second := by omega
      simp [ih, whole]

theorem atPositions_ordered (plan : Plan) (days times : List Nat) :
    (pendingSeconds (plan.atPositions days times)).Pairwise (· < ·) ∧
      ∀ second ∈ pendingSeconds (plan.atPositions days times),
        ∃ day ∈ days, ∃ time ∈ times, second = day * 86400 + time := by
  simp only [atPositions]
  split
  · simp
  · rw [pendingSeconds_split]
    refine ⟨ordered_pairwise _, fun second member => ?_⟩
    simp only [mem_ordered, List.mem_map, List.mem_filterMap] at member
    obtain ⟨⟨day, time⟩, ⟨position, _, found⟩, rfl⟩ := member
    have members := atPosition_mem found
    exact ⟨day, members.1, time, members.2, rfl⟩

theorem select_ordered (ordered : plan.Ordered) {period : Period} {kept times : List Nat}
    (keptIn : kept.Sublist (period.days plan.firstWeekday))
    (timesIn : times = plan.times period ∨ times = []) :
    (pendingSeconds (plan.select kept times)).Pairwise (· < ·) ∧
      ∀ second ∈ pendingSeconds (plan.select kept times),
        period.begin plan.firstWeekday ≤ second ∧
          second < period.finish plan.firstWeekday := by
  have member {time : Nat} (inTimes : time ∈ times) : time ∈ plan.times period := by
    rcases timesIn with rfl | rfl
    · exact inTimes
    · contradiction
  have increasing : times.Pairwise (· < ·) := by
    rcases timesIn with rfl | rfl
    · exact times_pairwise ordered period
    · exact List.Pairwise.nil
  unfold select
  split
  · constructor
    · simp only [pendingSeconds, List.flatMap_map]
      refine List.pairwise_flatMap.2 ⟨fun day _ => ?_, ?_⟩
      · exact List.pairwise_map.2 (increasing.imp fun less => Nat.add_lt_add_left less _)
      · refine ((days_pairwise ordered period).sublist keptIn).imp fun before => ?_
        intro early earlyIn late lateIn
        simp only [List.mem_map] at earlyIn lateIn
        obtain ⟨earlyTime, inTimes, rfl⟩ := earlyIn
        obtain ⟨lateTime, _, rfl⟩ := lateIn
        have beforeDay := before earlyTime (member inTimes)
        exact Nat.lt_of_lt_of_le beforeDay (Nat.le_add_right _ _)
    · intro second inPending
      simp only [pendingSeconds, List.flatMap_map, List.mem_flatMap, List.mem_map] at inPending
      obtain ⟨day, dayIn, time, timeIn, rfl⟩ := inPending
      exact mem_times_bounds ordered (keptIn.subset dayIn) (member timeIn)
  · obtain ⟨increasing, combined⟩ := atPositions_ordered plan kept times
    refine ⟨increasing, fun second inPending => ?_⟩
    obtain ⟨day, dayIn, time, timeIn, rfl⟩ := combined second inPending
    exact mem_times_bounds ordered (keptIn.subset dayIn) (member timeIn)

theorem judge_found {rest left : List DayTimes} {made : Option WallTime} {time : WallTime}
    (found : plan.judge rest made = some (.found time left)) : made = some time ∧ left = rest := by
  cases made with
  | none => simp [judge] at found
  | some wall =>
      simp only [judge] at found
      split at found
      · simp at found
      · split at found
        · simp at found
        · cases found
          exact ⟨rfl, rfl⟩

theorem seekOn_found {day : Nat} {others rest : List DayTimes} {times : List Nat}
    {time : WallTime} (found : plan.seekOn day others times = .found time rest) :
    ∃ skipped second, pendingSeconds (⟨day, times⟩ :: others) =
        skipped ++ second :: pendingSeconds rest ∧ time.micros = second * 1000000 := by
  induction times with
  | nil => contradiction
  | cons first later ih =>
      unfold seekOn at found
      cases judged : plan.judge (⟨day, later⟩ :: others)
          (WallTime.ofSeconds? (day * 86400 + first)) with
      | none =>
          rw [judged, Option.getD_none] at found
          obtain ⟨skipped, second, split, micros⟩ := ih found
          refine ⟨(day * 86400 + first) :: skipped, second, ?_, micros⟩
          rw [pendingSeconds_cons] at split ⊢
          rw [List.map_cons, List.cons_append, split, List.cons_append]
      | some sought =>
          rw [judged, Option.getD_some] at found
          subst found
          obtain ⟨made, rfl⟩ := judge_found judged
          exact ⟨[], day * 86400 + first, by simp,
            Int.ofNat.inj (WallTime.ofMicros?_eq_some.1 made)⟩

theorem seek_found {pending rest : List DayTimes} {time : WallTime}
    (found : plan.seek pending = .found time rest) :
    ∃ skipped second, pendingSeconds pending = skipped ++ second :: pendingSeconds rest ∧
      time.micros = second * 1000000 := by
  induction pending with
  | nil => contradiction
  | cons first others ih =>
      unfold seek at found
      split at found
      · contradiction
      · split at found
        · obtain ⟨skipped, second, split, micros⟩ := ih found
          exact ⟨(first.times.map fun time => first.day * 86400 + time) ++ skipped, second,
            by rw [pendingSeconds_cons, split, List.append_assoc], micros⟩
        · exact seekOn_found found

end Plan

namespace Stream

/-- A stream gives out times of its period from a second on and then those of later periods. -/
structure Ordered (stream : Stream) (low : Nat) : Prop where
  plan : stream.plan.Ordered
  proper : stream.period.Proper
  low_le : low ≤ stream.period.finish stream.plan.firstWeekday
  increasing : ∀ pending ∈ stream.pending, (pendingSeconds pending).Pairwise (· < ·)
  bounds : ∀ pending ∈ stream.pending, ∀ second ∈ pendingSeconds pending,
    low ≤ second ∧ second < stream.period.finish stream.plan.firstWeekday

variable {stream after : Stream} {low : Nat}

theorem enter_ordered {period : Period} {times : List Nat} (ordered : stream.plan.Ordered)
    (proper : period.Proper) (reached : low ≤ period.begin stream.plan.firstWeekday)
    (timesIn : times = stream.plan.times period ∨ times = []) :
    (stream.enter period times).Ordered low := by
  have low_le := Nat.le_trans reached (period.begin_le_finish stream.plan.firstWeekday)
  unfold enter
  split
  · exact ⟨ordered, proper, low_le, by simp, by simp⟩
  · next days skip kept =>
      simp only [Plan.keptDays] at kept
      split at kept
      · contradiction
      · cases kept
        obtain ⟨increasing, bounds⟩ :=
          Plan.select_ordered ordered List.filter_sublist timesIn
        refine ⟨ordered, proper, low_le, ?_, ?_⟩
        · rintro _ ⟨⟩
          exact increasing
        · rintro _ ⟨⟩ second member
          have bound := bounds second member
          exact ⟨Nat.le_trans reached bound.1, bound.2⟩

theorem ofPlan_ordered {plan : Plan} (ordered : plan.Ordered) : (ofPlan plan).Ordered 0 := by
  refine enter_ordered ordered (Period.proper_ofTime plan.frequency plan.start) (Nat.zero_le _) ?_
  split
  · exact .inl rfl
  · exact .inr rfl

theorem give_ordered {time given : WallTime} {pending rest : List DayTimes} {skipped : List Nat}
    {second : Nat} (ordered : stream.Ordered low) (isPending : stream.pending = some pending)
    (split : pendingSeconds pending = skipped ++ second :: pendingSeconds rest)
    (answered : stream.give time rest = (.time given, after)) :
    given = time ∧ low ≤ second ∧ after.Ordered (second + 1) := by
  have bounds := ordered.bounds pending isPending
  have increasing := ordered.increasing pending isPending
  rw [split] at bounds increasing
  have bound := bounds second (by simp)
  have restIncreasing := (List.pairwise_append.1 increasing).2.1
  obtain ⟨before, tail⟩ := List.pairwise_cons.1 restIncreasing
  have after (left : Option Int) :
      Ordered { stream with pending := some rest, remaining := left } (second + 1) := by
    refine ⟨ordered.plan, ordered.proper, bound.2, ?_, ?_⟩
    · rintro _ ⟨⟩
      exact tail
    · rintro _ ⟨⟩ later member
      exact ⟨before later member, (bounds later (by simp [member])).2⟩
  unfold give at answered
  split at answered
  · next unlimited =>
      cases answered
      exact ⟨rfl, bound.1, unlimited ▸ after none⟩
  · split at answered
    · simp at answered
    · cases answered
      exact ⟨rfl, bound.1, after _⟩

theorem nextWithin_ordered {periods : Nat} {time : WallTime} (ordered : stream.Ordered low)
    (given : nextWithin periods stream = (.time time, after)) :
    ∃ second, low ≤ second ∧ time.micros = second * 1000000 ∧ after.Ordered (second + 1) := by
  induction periods generalizing stream with
  | zero => simp [nextWithin] at given
  | succ periods ih =>
      unfold nextWithin at given
      split at given
      · simp at given
      · next pending isPending =>
          split at given
          · next found =>
              obtain ⟨skipped, second, split, micros⟩ := Plan.seek_found found
              obtain ⟨rfl, low_le, behind⟩ := give_ordered ordered isPending split given
              exact ⟨second, low_le, micros, behind⟩
          · simp at given
          · simp at given
          · split at given
            · next moved =>
                obtain ⟨behind, proper⟩ :=
                  Plan.finish_le_begin ordered.plan.interval ordered.proper moved
                exact ih (enter_ordered ordered.plan proper
                  (Nat.le_trans ordered.low_le behind) (.inl rfl)) given
            · simp at given
            · simp at given

/-- The next time of a stream is not before the second that the stream has reached, and the stream is
behind that time afterwards. -/
theorem next_ordered {time : WallTime} (ordered : stream.Ordered low)
    (given : stream.next = (.time time, after)) :
    ∃ second, low ≤ second ∧ time.micros = second * 1000000 ∧ after.Ordered (second + 1) := by
  unfold next at given
  split at given
  · simp at given
  · exact nextWithin_ordered ordered given

end Stream

end Recurrence
