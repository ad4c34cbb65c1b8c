import Mathlib.Control.Monad.Basic
import Recurrence.Occurrences
import Recurrence.Proofs.Expansion.Order
import Recurrence.Proofs.Weekly.Walk
import Recurrence.Zone.Americas

namespace Recurrence

/-! In which order occurrences are listed.

Occurrences always increase as wall-clock times.  As instants they increase exactly if no skipped time
is followed by a time that the clocks have already passed when they are put forward:
`Expansion.occurrences_pairwise_lt_iff`.
-/

/-- Whether the clocks still have to reach a time after an occurrence.  Two skipped times are moved
forward alike, so they need nothing. -/
def Zone.Reaches (zone : Zone) (earlier later : Moment) : Prop :=
  zone.skips earlier.wall = true → zone.skips later.wall = false →
    zone.clock earlier.instant < later.wall.micros

structure Zone.Precedes (zone : Zone) (earlier later : Moment) : Prop where
  wall_lt : earlier.wall < later.wall
  lt_iff : earlier < later ↔ zone.Reaches earlier later

namespace Zone

variable {zone : Zone} {earlier later : Moment}

theorem precedes_of_localize (readEarlier : zone.localize earlier.wall = some earlier)
    (readLater : zone.localize later.wall = some later) (wall_lt : earlier.wall < later.wall) :
    zone.Precedes earlier later := by
  refine ⟨wall_lt, ?_⟩
  rw [lt_iff_clock_lt readEarlier readLater wall_lt, Reaches]
  obtain ⟨kept, _⟩ := clock_of_localize readEarlier
  have increasing : earlier.wall.micros < later.wall.micros := wall_lt
  cases skipsEarlier : zone.skips earlier.wall with
  | false =>
      have shown := kept skipsEarlier
      simp only [Bool.false_eq_true, false_implies, iff_true]
      omega
  | true => cases skipsLater : zone.skips later.wall <;> simp

theorem precedes_of_face_add_day_le (coherent : earlier.Coherent)
    (wall_le : (earlier.wall.micros : Int) ≤ zone.face earlier)
    (ahead : zone.face earlier + 86400000000 ≤ later.wall.micros)
    (readLater : zone.localize later.wall = some later) : zone.Precedes earlier later := by
  have wall_lt : earlier.wall.micros < later.wall.micros := by omega
  have ofClock (shown : zone.clock earlier.instant + 86400000000 ≤ later.wall.micros) :
      zone.Precedes earlier later := by
    have reached : zone.clock earlier.instant < later.wall.micros := by omega
    exact ⟨wall_lt, iff_of_true (lt_of_clock_add_day_le readLater shown) fun _ _ => reached⟩
  unfold face at ahead
  split at ahead
  · next kept =>
      obtain ⟨stands, rfl⟩ := stands_of_keeps kept
      rcases coherent stands with shown | localized
      · exact ofClock (by omega)
      · exact precedes_of_localize localized readLater wall_lt
  · exact ofClock ahead

end Zone

namespace Expander

theorem advance_date {generator later : Expander} {date : Moment} {low : Nat}
    (ordered : generator.stream.Ordered low) (answered : generator.advance = (.date date, later)) :
    later.course = generator.course ∧
      generator.course.calendar.zone.localize date.wall = some date ∧
      ∃ second, low ≤ second ∧ date.wall.micros = second * 1000000 ∧
        later.stream.Ordered (second + 1) := by
  simp only [advance] at answered
  split at answered
  · simp at answered
  · split at answered
    · simp at answered
    · simp at answered
    · next time given =>
        split at answered
        · simp at answered
        · next read =>
            cases answered
            obtain ⟨second, low_le, micros, behind⟩ :=
              Stream.next_ordered ordered (Prod.ext given rfl)
            have wall := Zone.wall_of_localize read
            subst wall
            exact ⟨rfl, read, second, low_le, micros, behind⟩

/-- The dates of an expander are read in its zone and their wall-clock times increase. -/
theorem precedes_of_gives {generator : Expander} {low : Nat} {dates : List Moment}
    (ordered : generator.stream.Ordered low) (gives : (Generator.expanding generator).Gives dates) :
    dates.Pairwise generator.course.calendar.zone.Precedes ∧ ∀ date ∈ dates,
      generator.course.calendar.zone.localize date.wall = some date ∧
        ∃ second, low ≤ second ∧ date.wall.micros = second * 1000000 := by
  induction dates generalizing generator low with
  | nil => exact ⟨.nil, by simp⟩
  | cons date rest ih =>
      obtain _ | ⟨answered, gives⟩ := gives
      simp only [Generator.advance, Prod.mk.injEq] at answered
      obtain ⟨isDate, rfl⟩ := answered
      obtain ⟨same, read, second, low_le, micros, behind⟩ :=
        advance_date ordered (Prod.ext isDate rfl)
      obtain ⟨increasing, later⟩ := ih behind gives
      rw [same] at increasing later
      refine ⟨List.pairwise_cons.2 ⟨fun other member => ?_, increasing⟩, fun other member => ?_⟩
      · obtain ⟨readOther, further, less, microsOther⟩ := later other member
        have wall_lt : date.wall.micros < other.wall.micros := by
          rw [micros, microsOther]
          exact Nat.mul_lt_mul_of_pos_right less (by decide)
        exact Zone.precedes_of_localize read readOther wall_lt
      · rcases List.mem_cons.1 member with rfl | inRest
        · exact ⟨read, second, low_le, micros⟩
        · obtain ⟨readOther, further, less, microsOther⟩ := later other inRest
          exact ⟨readOther, further, Nat.le_trans low_le (Nat.le_of_lt less), microsOther⟩

/-- What an expander takes from its rule: its course, and a plan that begins at the first date and ends
at the last one as the calendar shows them. -/
theorem begins_of_build {rule : Rule} {start : DateTime} {calendar : Calendar} {generator : Expander}
    (built : build rule start calendar = .ok generator) :
    Course.Begins rule start calendar generator.course generator.cursor ∧
      rule.seconds.contains 60 = false ∧
      ∃ plan, Plan.ofRule rule generator.cursor.current.wall (generator.course.last.map Moment.wall)
        calendar.firstWeekday = some plan ∧ generator.stream = .ofPlan plan := by
  unfold build at built
  split at built
  · contradiction
  · next course cursor begun =>
      simp only at built
      split at built
      · contradiction
      · next noLeap =>
          split at built
          · contradiction
          · next plan made =>
              cases built
              exact ⟨Course.begins_of_begin? begun, Bool.eq_false_iff.2 noLeap, plan, made, rfl⟩

theorem precedes_of_build {rule : Rule} {start : DateTime} {calendar : Calendar}
    {generator : Expander} {dates : List Moment} (valid : rule.Valid)
    (built : build rule start calendar = .ok generator)
    (gives : (Generator.expanding generator).Gives dates) :
    dates.Pairwise calendar.zone.Precedes := by
  obtain ⟨begins, noLeap, plan, made, stream⟩ := begins_of_build built
  have ordered : plan.Ordered := Plan.ofRule_ordered valid (by simpa using noLeap) made
  have streamOrdered := Stream.ofPlan_ordered ordered
  rw [← stream] at streamOrdered
  rw [← begins.calendar_eq]
  exact (precedes_of_gives streamOrdered gives).1

end Expander

namespace WeeklyWalk

/-- The dates of a weekly walk are at least a day apart, so no two of them are out of order. -/
theorem precedes_of_gives {generator : WeeklyWalk} {dates : List Moment}
    (positive : 1 ≤ generator.course.interval)
    (fits : generator.course.calendar.Fits generator.cursor.current)
    (gives : (Generator.weekly generator).Gives dates) :
    dates.Pairwise generator.course.calendar.zone.Precedes ∧
      ∀ date ∈ dates, ∃ passed,
        Walked generator.course generator.cursor.current passed date := by
  induction dates generalizing generator with
  | nil => exact ⟨.nil, by simp⟩
  | cons date rest ih =>
      obtain _ | ⟨answered, gives⟩ := gives
      simp only [Generator.advance, Prod.mk.injEq] at answered
      obtain ⟨isDate, rfl⟩ := answered
      obtain ⟨same, passed, walked, moved⟩ := advance_date (Prod.ext isDate rfl)
      have dateFits := walked.fits fits
      obtain ⟨increasing, later⟩ := ih (by rw [same]; exact positive)
        (by rw [same]; exact (walked.step moved).fits fits) gives
      rw [same] at increasing later
      refine ⟨List.pairwise_cons.2 ⟨fun other member => ?_, increasing⟩, fun other member => ?_⟩
      · obtain ⟨_, walkedOn⟩ := later other member
        obtain ⟨ahead, read⟩ := walkedOn.face_add_day_le positive moved
        exact Zone.precedes_of_face_add_day_le dateFits.coherent dateFits.wall_le_face ahead read
      · rcases List.mem_cons.1 member with rfl | inRest
        · exact ⟨passed, walked⟩
        · obtain ⟨_, walkedOn⟩ := later other inRest
          exact ⟨_, (walked.step moved).trans walkedOn⟩

theorem precedes_of_build {rule : Rule} {start : DateTime} {calendar : Calendar}
    {generator : WeeklyWalk} {dates : List Moment} (valid : rule.Valid) (coherent : start.Coherent)
    (built : build rule start calendar = .ok generator)
    (gives : (Generator.weekly generator).Gives dates) :
    dates.Pairwise calendar.zone.Precedes := by
  have begins := begins_of_build built
  have fits := Calendar.fits_of_shown coherent begins.shows_start
  rw [← begins.calendar_eq] at fits ⊢
  have positive : 1 ≤ generator.course.interval := by
    rw [begins.interval_eq]
    exact valid.1
  exact (precedes_of_gives positive fits gives).1

end WeeklyWalk

namespace Registry

theorem mem_of_search {rule : Rule} {start : DateTime} {calendar : Calendar}
    {error : GeneratorError} {variants : List Variant} {variant : Variant} {generator : Generator}
    (found : (search rule start calendar error variants).result = .ok (variant, generator)) :
    variant ∈ variants ∧ variant.build rule start calendar = .ok generator := by
  induction variants generalizing error with
  | nil => simp [search] at found
  | cons first rest ih =>
      simp only [search] at found
      split at found
      · split at found
        · next built =>
            cases found
            exact ⟨List.mem_cons_self, built⟩
        · contradiction
        · obtain ⟨member, built⟩ := ih found
          exact ⟨List.mem_cons_of_mem _ member, built⟩
      · obtain ⟨member, built⟩ := ih found
        exact ⟨List.mem_cons_of_mem _ member, built⟩

theorem variants_initial {frequency : Frequency} {variant : Variant}
    (member : variant ∈ initial.variants frequency) :
    variant = .weekly ∨ variant = .expanding := by
  cases frequency with
  | weekly =>
      have listed : initial.variants .weekly = [.weekly, .expanding] := rfl
      simpa [listed] using member
  | yearly | monthly | daily | hourly | minutely => exact .inr (List.mem_singleton.1 member)

/-- A registry as it stands at first generates a rule by a weekly walk or by an expander. -/
theorem built_of_create {rule : Rule} {start : DateTime} {calendar : Calendar} {variant : Variant}
    {generator : Generator}
    (found : (initial.create rule start calendar).result = .ok (variant, generator)) :
    (variant = .weekly ∧ ∃ walk, WeeklyWalk.build rule start calendar = .ok walk ∧
      generator = .weekly walk) ∨
    (variant = .expanding ∧ ∃ expander, Expander.build rule start calendar = .ok expander ∧
      generator = .expanding expander) := by
  obtain ⟨member, built⟩ := mem_of_search found
  rcases variants_initial member with rfl | rfl
  · simp only [Variant.weekly] at built
    cases walkBuilt : WeeklyWalk.build rule start calendar with
    | error => simp [walkBuilt, Except.map] at built
    | ok walk =>
        rw [walkBuilt] at built
        exact .inl ⟨rfl, walk, rfl, (Except.ok.inj built).symm⟩
  · simp only [Variant.expanding] at built
    cases expanderBuilt : Expander.build rule start calendar with
    | error => simp [expanderBuilt, Except.map] at built
    | ok expander =>
        rw [expanderBuilt] at built
        exact .inr ⟨rfl, expander, rfl, (Except.ok.inj built).symm⟩

theorem precedes_of_create {rule : Rule} {start : DateTime} {calendar : Calendar}
    {variant : Variant} {generator : Generator} {dates : List Moment} (valid : rule.Valid)
    (coherent : start.Coherent)
    (found : (initial.create rule start calendar).result = .ok (variant, generator))
    (gives : generator.Gives dates) : dates.Pairwise calendar.zone.Precedes := by
  rcases built_of_create found with ⟨_, walk, built, rfl⟩ | ⟨_, expander, built, rfl⟩
  · exact WeeklyWalk.precedes_of_build valid coherent built gives
  · exact Expander.precedes_of_build valid built gives

end Registry

namespace Expansion

variable {rule : Rule} {start : DateTime} {bound : Option DateTime} {limit : Int}
  {calendar : Calendar} {dates : List Moment}

/-- Occurrences that were listed were taken from a generator of the registry. -/
theorem taken_of_occurrences {registry : Registry} (positive : 0 < limit)
    (listed : (occurrences registry rule start bound limit calendar).result = .ok dates) :
    ∃ variant generator localized,
      (registry.create rule start calendar).result = .ok (variant, generator) ∧
      localizeBound calendar bound = some localized ∧
      (generator.take localized limit.toNat).1 = .ok dates := by
  rw [occurrences, if_neg (Int.not_le.mpr positive)] at listed
  simp only at listed
  split at listed
  · contradiction
  · contradiction
  · next variant generator found =>
      split at listed
      · contradiction
      · next localized shown =>
          split at listed
          · contradiction
          · next taken =>
              cases listed
              exact ⟨variant, generator, localized, found, shown, taken⟩

theorem precedes_of_occurrences (valid : rule.Valid) (coherent : start.Coherent)
    (listed : (occurrences .initial rule start bound limit calendar).result = .ok dates) :
    dates.Pairwise calendar.zone.Precedes := by
  by_cases positive : 0 < limit
  · obtain ⟨_, _, _, found, _, taken⟩ := taken_of_occurrences positive listed
    exact Registry.precedes_of_create valid coherent found (Generator.gives_of_take taken)
  · rw [occurrences, if_pos (Int.not_lt.mp positive)] at listed
    cases listed
    exact .nil

/-- Occurrences always increase as wall-clock times, and they increase as instants exactly if the
clocks have not passed an occurrence when they are put forward past one before it. -/
theorem occurrences_pairwise_lt_iff (valid : rule.Valid) (coherent : start.Coherent)
    (listed : (occurrences .initial rule start bound limit calendar).result = .ok dates) :
    dates.Pairwise (fun earlier later => earlier.wall < later.wall) ∧
      (dates.Pairwise (· < ·) ↔ dates.Pairwise calendar.zone.Reaches) := by
  have precedes := precedes_of_occurrences valid coherent listed
  refine ⟨precedes.imp Zone.Precedes.wall_lt, fun increasing => ?_, fun reaching => ?_⟩
  · exact (precedes.and increasing).imp fun ⟨before, earlier⟩ => before.lt_iff.1 earlier
  · exact (precedes.and reaching).imp fun ⟨before, reaches⟩ => before.lt_iff.2 reaches

/-- Four half hours from 01:30 on 10 March 2024 on, of which New York skips 02:00 and 02:30. -/
def halfHours : Rule where
  frequency := .minutely
  interval := 30
  ending := .afterCount 4

def halfHourStart : WallTime := ⟨63845631000000000, by decide⟩

def newYork : Calendar := { zone := .varying Zone.NewYork.history .reader }

def halfHourDates : List Moment :=
  [⟨halfHourStart, -18000000000, newYork.zone⟩, ⟨⟨63845632800000000, by decide⟩, -18000000000, newYork.zone⟩,
    ⟨⟨63845634600000000, by decide⟩, -18000000000, newYork.zone⟩,
    ⟨⟨63845636400000000, by decide⟩, -14400000000, newYork.zone⟩]

theorem occurrences_halfHours :
    (occurrences .initial halfHours (.naive halfHourStart) none defaultLimit newYork).result =
      .ok halfHourDates := by
  decide +kernel

theorem halfHourDates_pairwise_lt_iff :
    halfHourDates.Pairwise (fun earlier later => earlier.wall < later.wall) ∧
      (halfHourDates.Pairwise (· < ·) ↔ halfHourDates.Pairwise newYork.zone.Reaches) :=
  occurrences_pairwise_lt_iff (by decide) (DateTime.coherent_naive _) occurrences_halfHours

/-- Occurrences do not always increase: 03:00 of summer time is the instant that 02:00 is read as, and
comes before the one that 02:30 is read as. -/
theorem not_forall_occurrences_increase :
    ¬ ∀ (rule : Rule) (start : DateTime) (bound : Option DateTime) (limit : Int)
      (calendar : Calendar) (dates : List Moment), rule.Valid → start.Coherent →
        (occurrences .initial rule start bound limit calendar).result = .ok dates →
          dates.Pairwise (· < ·) := by
  intro increase
  have increasing := increase halfHours (.naive halfHourStart) none defaultLimit newYork halfHourDates
    (by decide) (DateTime.coherent_naive _) occurrences_halfHours
  exact absurd increasing (by decide +kernel)

end Expansion

end Recurrence
