import Recurrence.Proofs.Weekly.Answers
import Recurrence.Proofs.Weekly.Weeks

namespace Recurrence

/-! The dates that a weekly generator has not given out yet.

In a calendar of one offset these are the dates that the rule means, less as many as are counted
(`WeeklyWalk.toCome`).  A walk moves on before it gives out the date at hand, so a call gives out the
first of them exactly if another candidate follows in the calendar, and a date that none follows is
lost (`WeeklyWalk.advance_toCome`).
-/

/-- Cutting dates off and leaving out the first of them can change places. -/
theorem Ending.drop_cut (ending : Ending) {before later : List Moment}
    (increasing : (before ++ later).Pairwise (· < ·)) :
    (ending.cut 0 (before ++ later)).drop before.length = ending.cut before.length later := by
  cases ending with
  | never => exact List.drop_left
  | afterCount count =>
      rw [cut, cut, List.drop_take, List.drop_left, Nat.sub_zero]
  | afterDate last =>
      simp only [cut]
      induction before with
      | nil => rfl
      | cons date before ih =>
          obtain ⟨first, increasing⟩ := List.pairwise_cons.1 increasing
          rw [List.cons_append, List.takeWhile_cons]
          split
          · exact ih increasing
          · next behind =>
              rw [decide_eq_true_eq] at behind
              have noMore : (Ending.afterDate last).cut 0 later = [] := cut_eq_nil behind
                fun other member => Int.le_of_lt (first other (List.mem_append_right _ member))
              exact noMore.symm

namespace WeeklyWalk

/-- A generator behind a number of calls. -/
def after : Nat → WeeklyWalk → WeeklyWalk
  | 0, generator => generator
  | calls + 1, generator => after calls generator.advance.2

/-- The dates that a rule means, less those that are given out. -/
def toCome (rule : Rule) (firstWeekday : Weekday) (start : Moment) (cursor : Cursor) : List Moment :=
  (meaning rule firstWeekday start).drop cursor.count

/-- Another day of an active week follows a date in the calendar. -/
def Followed (rule : Rule) (firstWeekday : Weekday) (start date : Moment) : Prop :=
  ∃ days next, isActive rule.interval firstWeekday start days = true ∧
    candidate start days = some next ∧ date < next

/-- How a generator for a rule is found between its calls. -/
inductive Reached (rule : Rule) (calendar : Calendar) (start : Moment) (generator : WeeklyWalk) : Prop
  | stands {days : Nat} (reads : Reads rule calendar start generator.course generator.filter)
      (stands : Stands rule calendar.firstWeekday start days generator.cursor) :
      Reached rule calendar start generator
  | exhausted (isExhausted : generator.cursor.exhausted = true)
      (noDates : toCome rule calendar.firstWeekday start generator.cursor = []) :
      Reached rule calendar start generator

variable {rule : Rule} {calendar : Calendar} {firstWeekday : Weekday} {start date : Moment}
  {course : Course} {filter : WeekdayFilter} {generator : WeeklyWalk} {days : Nat}

theorem Stands.toCome_eq {cursor : Cursor} (stands : Stands rule firstWeekday start days cursor) :
    toCome rule firstWeekday start cursor =
      rule.ending.cut cursor.count (selection rule firstWeekday start days dayCount) := by
  have inCalendar := days_lt_of_candidate stands.inside
  have increasing := @selection_pairwise rule firstWeekday start 0 dayCount
  have parts := @selection_append rule firstWeekday start 0 days dayCount (Nat.zero_le days)
    (Nat.le_of_lt inCalendar)
  rw [parts] at increasing
  rw [toCome, meaning, parts, stands.count_eq]
  exact rule.ending.drop_cut increasing

theorem Reached.advance (reached : Reached rule calendar start generator) :
    Reached rule calendar start generator.advance.2 := by
  cases reached with
  | exhausted isExhausted noDates =>
      rw [advance_of_exhausted isExhausted]
      exact .exhausted isExhausted noDates
  | @stands days reads stands =>
      rw [advance_eq_walk stands.exhausted_eq]
      rcases walk_cases (dayCount + 1) reads stands (by omega) with
        ⟨_, moved, left, broken, behind, _⟩ | ⟨_, exhausted, count, noDates⟩ |
          ⟨_, moved, later, given, behind, _⟩
      · rw [broken]
        exact .stands reads behind
      · refine .exhausted exhausted ?_
        rw [← stands.toCome_eq, toCome, ← count] at noDates
        exact noDates
      · rw [given]
        exact .stands reads behind

theorem Reached.after (reached : Reached rule calendar start generator) (calls : Nat) :
    Reached rule calendar start (generator.after calls) := by
  induction calls generalizing generator with
  | zero => exact reached
  | succ calls ih => exact ih reached.advance

theorem exists_selected_of_toCome {cursor : Cursor} {rest : List Moment}
    (dates : toCome rule firstWeekday start cursor = date :: rest) :
    ∃ days, selected rule firstWeekday start days = some date := by
  have member : date ∈ toCome rule firstWeekday start cursor := by
    rw [dates]
    exact List.mem_cons_self
  have inSelection := (rule.ending.cut_sublist 0 _).subset (List.mem_of_mem_drop member)
  obtain ⟨days, _, isSelected⟩ := List.mem_filterMap.1 inSelection
  exact ⟨days, isSelected⟩

/-- A date from which a walk has moved on is followed by another. -/
theorem followed_of_nextDate {next : Moment} (reads : Reads rule calendar start course filter)
    (isSelected : selected rule calendar.firstWeekday start days = some date)
    (moved : nextDate course date = .ok next) : Followed rule calendar.firstWeekday start date := by
  obtain ⟨inside, active, _⟩ := selected_eq_some.1 isSelected
  cases following_ : candidate start (following rule.interval calendar.firstWeekday start days) with
  | none =>
      obtain ⟨fault, broken⟩ := nextDate_outside reads inside following_
      rw [broken] at moved
      cases moved
  | some other =>
      have forward := lt_following rule.interval calendar.firstWeekday start days
      exact ⟨_, other, (isActive_following reads.positive active).1, following_,
        candidate_lt inside following_ forward⟩

section Last

variable (positive : 1 ≤ rule.interval)
  (active : isActive rule.interval firstWeekday start days = true)
  (outside : candidate start (following rule.interval firstWeekday start days) = none)

include positive active outside

theorem not_followed_of_outside (inside : candidate start days = some date) :
    ¬Followed rule firstWeekday start date := by
  intro followed
  obtain ⟨other, next, otherActive, otherInside, later⟩ := followed
  have forward : days < other := by
    refine Nat.lt_of_not_le fun early => ?_
    have before : next.instant ≤ date.instant := candidate_le otherInside inside early
    exact absurd later (Int.not_lt.2 before)
  have beyond : following rule.interval firstWeekday start days ≤ other := by
    refine Nat.le_of_not_lt fun between => ?_
    have inactive := (isActive_following positive active).2 other forward between
    exact Bool.noConfusion (otherActive.symm.trans inactive)
  have behind := candidate_eq_none.1 outside
  have noOther : candidate start other = none := candidate_eq_none.2 (by omega)
  rw [noOther] at otherInside
  cases otherInside

/-- Before the end of the calendar at most the day at hand is selected. -/
theorem selection_of_outside :
    selection rule firstWeekday start days dayCount =
      (selected rule firstWeekday start days).toList := by
  have forward := Nat.le_of_lt (lt_following rule.interval firstWeekday start days)
  have behind := candidate_eq_none.1 outside
  have noMore : selection rule firstWeekday start
      (following rule.interval firstWeekday start days)
      (dayCount + following rule.interval firstWeekday start days) = [] := selection_behind behind
  rw [← selection_upTo (Nat.le_add_right dayCount (following rule.interval firstWeekday start days)),
    selection_append forward (Nat.le_add_left _ _), noMore, selection_following positive active,
    List.append_nil]

end Last

/-- A call gives out the first of the dates to come if another candidate follows it.  Otherwise that date
is the last, and the call breaks off at it and leaves it uncounted. -/
theorem Reached.advance_toCome {rest : List Moment} (reached : Reached rule calendar start generator)
    (dates : toCome rule calendar.firstWeekday start generator.cursor = date :: rest) :
    (Followed rule calendar.firstWeekday start date ∧ generator.advance.1 = .date date) ∨
      ¬Followed rule calendar.firstWeekday start date ∧ rest = [] ∧
        generator.advance.2.cursor = ⟨date, generator.cursor.count, false⟩ ∧
        ∃ fault, generator.advance.1 = .broken (.outOfRange fault) := by
  cases reached with
  | exhausted isExhausted noDates =>
      rw [noDates] at dates
      contradiction
  | @stands days reads stands =>
      rw [advance_eq_walk stands.exhausted_eq]
      rcases walk_cases (dayCount + 1) reads stands (by omega) with
        ⟨fault, moved, left, broken, behind, count, allowed, outside⟩ | ⟨_, _, _, noDates⟩ |
          ⟨given, moved, later, answered, behind, _, givenFirst⟩
      · have lost := not_followed_of_outside reads.positive behind.active outside behind.inside
        rw [toCome, ← count, ← toCome, behind.toCome_eq,
          selection_of_outside reads.positive behind.active outside] at dates
        cases isSelected : selected rule calendar.firstWeekday start left with
        | none =>
            rw [isSelected, Option.toList_none, Ending.cut_nil] at dates
            cases dates
        | some last =>
            have isLast : moved.current = last :=
              Option.some.inj (behind.inside.symm.trans (selected_eq_some.1 isSelected).1)
            rw [isSelected, Option.toList_some, ← isLast, Ending.cut_cons allowed,
              Ending.cut_nil] at dates
            cases dates
            refine .inr ⟨lost, rfl, ?_, fault, ?_⟩
            · rw [broken, ← count, ← behind.exhausted_eq]
            · rw [broken]
      · rw [stands.toCome_eq, noDates] at dates
        cases dates
      · obtain ⟨first, isSelected⟩ := exists_selected_of_toCome dates
        rw [stands.toCome_eq, givenFirst] at dates
        cases dates
        obtain ⟨_, _, moves⟩ := walk_date answered
        refine .inl ⟨followed_of_nextDate reads isSelected moves, ?_⟩
        rw [answered]

theorem reached_of_build {begun : DateTime} {offset : Int} (valid : rule.Valid)
    (weekly : rule.frequency = .weekly) (coherent : begun.Coherent)
    (constant : calendar.zone.constantOffset? = some offset)
    (shows : calendar.localize begun = some start)
    (built : build rule begun calendar = .ok generator) : Reached rule calendar start generator := by
  have showsLast := (begins_of_build built).shows_last
  have endInside : ∀ last ∈ rule.ending.date?, (calendar.localize (.aware last)).isSome = true := by
    intro last isLast
    rw [Option.mem_def.1 isLast, Option.map_some, Option.map_eq_some_iff] at showsLast
    obtain ⟨shown, _, isShown⟩ := showsLast
    rw [← isShown]
    rfl
  obtain ⟨other, builtOther, reads, stands, _⟩ :=
    exists_build valid weekly coherent constant shows endInside
  cases built.symm.trans builtOther
  exact .stands reads stands

/-- Between calls of a weekly generator in a calendar of one offset, the next date to come is given out
exactly if another candidate follows it.  A date that none follows is the last one and is lost. -/
theorem advance_eq_date_iff_followed {begun : DateTime} {offset : Int} (valid : rule.Valid)
    (weekly : rule.frequency = .weekly) (coherent : begun.Coherent)
    (constant : calendar.zone.constantOffset? = some offset)
    (shows : calendar.localize begun = some start)
    (built : build rule begun calendar = .ok generator) (calls : Nat) {rest : List Moment}
    (dates : toCome rule calendar.firstWeekday start (generator.after calls).cursor = date :: rest) :
    ((generator.after calls).advance.1 = .date date ↔
      Followed rule calendar.firstWeekday start date) ∧
    (¬Followed rule calendar.firstWeekday start date → rest = [] ∧
      (generator.after calls).advance.2.cursor = ⟨date, (generator.after calls).cursor.count, false⟩ ∧
      ∃ fault, (generator.after calls).advance.1 = .broken (.outOfRange fault)) := by
  have reached := (reached_of_build valid weekly coherent constant shows built).after calls
  rcases reached.advance_toCome dates with ⟨followed, given⟩ | ⟨lost, isLast, stays, fault, broken⟩
  · exact ⟨iff_of_true given followed, fun lost => absurd followed lost⟩
  · refine ⟨iff_of_false (fun given => ?_) lost, fun _ => ⟨isLast, stays, fault, broken⟩⟩
    rw [broken] at given
    cases given

/-- One Sunday, and the weeks that follow it lie behind the calendar. -/
def oneSunday : Rule where
  frequency := .weekly
  interval := 1000000
  ending := .afterCount 1

/-- 5 January 2025 at 09:00. -/
def sundayStart : Moment := ⟨⟨63871664400000000, by decide⟩, 0, .utc⟩

def oneSundayWalk : WeeklyWalk :=
  ⟨⟨{}, 1000000, .afterCount 1, none⟩, ⟨sundayStart, 0, false⟩, ⟨[.every .sunday], false⟩⟩

theorem build_oneSunday :
    build oneSunday (.naive sundayStart.wall) {} = .ok oneSundayWalk := rfl

theorem toCome_oneSunday :
    toCome oneSunday .monday sundayStart oneSundayWalk.cursor = [sundayStart] := by
  have first : selection oneSunday .monday sundayStart 0 1 = [sundayStart] := by decide +kernel
  have parts := @selection_append oneSunday .monday sundayStart 0 1 dayCount (by decide) (by decide)
  rw [toCome, meaning, parts, first]
  rfl

theorem broken_oneSunday : oneSundayWalk.advance.1 = .broken .range := by decide +kernel

/-- The only Sunday of the rule is to come, none follows it, and a call breaks off before it. -/
theorem oneSunday_lost :
    oneSunday.Valid ∧ build oneSunday (.naive sundayStart.wall) {} = .ok oneSundayWalk ∧
      toCome oneSunday .monday sundayStart oneSundayWalk.cursor = [sundayStart] ∧
      ¬Followed oneSunday .monday sundayStart sundayStart ∧
      oneSundayWalk.advance.2.cursor = oneSundayWalk.cursor := by
  have valid : oneSunday.Valid := by decide
  obtain ⟨given, lost⟩ := @advance_eq_date_iff_followed oneSunday {} sundayStart sundayStart
    oneSundayWalk (.naive sundayStart.wall) 0 valid rfl (DateTime.coherent_naive _) rfl rfl
    build_oneSunday 0 [] toCome_oneSunday
  have notFollowed : ¬Followed oneSunday .monday sundayStart sundayStart := by
    intro followed
    have answered : oneSundayWalk.advance.1 = .date sundayStart := given.2 followed
    rw [broken_oneSunday] at answered
    cases answered
  exact ⟨valid, build_oneSunday, toCome_oneSunday, notFollowed, (lost notFollowed).2.1⟩

theorem not_forall_toCome_given :
    ¬∀ rule calendar begun start offset generator calls date rest, rule.Valid →
      rule.frequency = .weekly → (∀ part ∈ rule.restrictions, part = .weekday) →
      DateTime.Coherent begun → calendar.zone.constantOffset? = some offset →
      calendar.localize begun = some start → build rule begun calendar = .ok generator →
      toCome rule calendar.firstWeekday start (generator.after calls).cursor = date :: rest →
      (generator.after calls).advance.1 = .date date := by
  intro all
  have answered : oneSundayWalk.advance.1 = .date sundayStart :=
    all oneSunday {} (.naive sundayStart.wall) sundayStart 0 oneSundayWalk 0 sundayStart []
      (by decide) rfl (by decide) (DateTime.coherent_naive _) rfl rfl build_oneSunday toCome_oneSunday
  rw [broken_oneSunday] at answered
  cases answered

end WeeklyWalk

end Recurrence
