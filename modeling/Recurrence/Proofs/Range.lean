import Recurrence.Proofs.Occurrences

namespace Recurrence

/-! Which dates a range holds.

What a generator gives out may be endless, so it is known by its beginnings, the lists that
`Generator.Gives` admits.  In a calendar of one offset the dates increase, and a range holds the first
of them that lie in it, up to the limit: `Expansion.firsts_of_between`.
-/

/-- Whether a date is not past a bound, the bound itself included or not. -/
def Moment.admits (bound : Moment) (inclusive : Bool) (date : Moment) : Bool :=
  if inclusive then decide (date ≤ bound) else decide (date < bound)

namespace Generator

/-- The first dates, up to a number, of all that a generator gives out and a test accepts: a beginning
holds them, and no longer beginning has others. -/
def Firsts (generator : Generator) (number : Nat) (accepts : Moment → Bool)
    (dates : List Moment) : Prop :=
  ∃ beginning, generator.Gives beginning ∧
    ∀ longer, beginning <+: longer → generator.Gives longer →
      dates = (longer.filter accepts).take number

/-- A test that accepts no date behind a bound, and with a date all earlier ones. -/
structure UpTo (bound : Moment) (accepts : Moment → Bool) : Prop where
  le_bound : ∀ date, accepts date = true → date ≤ bound
  earlier : ∀ date later, date < later → accepts later = true → accepts date = true

variable {generator later : Generator} {bound date : Moment} {accepts : Moment → Bool}
  {dates : List Moment}

theorem upTo_admits (bound : Moment) (inclusive : Bool) :
    UpTo bound (bound.admits inclusive) := by
  cases inclusive with
  | true =>
      constructor
      · intro date accepted
        exact of_decide_eq_true accepted
      · intro date later before accepted
        exact decide_eq_true (Int.le_of_lt (Int.lt_of_lt_of_le before (of_decide_eq_true accepted)))
  | false =>
      constructor
      · intro date accepted
        exact Int.le_of_lt (of_decide_eq_true accepted)
      · intro date later before accepted
        exact decide_eq_true (Int.lt_trans before (of_decide_eq_true accepted))

theorem UpTo.filter_eq_nil (upTo : UpTo bound accepts)
    (increasing : (date :: dates).Pairwise (· < ·)) (refused : accepts date = false) :
    (date :: dates).filter accepts = [] := by
  apply List.filter_eq_nil_iff.mpr
  intro other member accepted
  rcases List.mem_cons.mp member with same | behind
  · rw [same, refused] at accepted
    exact Bool.noConfusion accepted
  · have before := List.rel_of_pairwise_cons increasing behind
    rw [upTo.earlier date other before accepted] at refused
    exact Bool.noConfusion refused

theorem gives_of_finished (finished : generator.advance.1 = .finished)
    (gives : generator.Gives dates) : dates = [] := by
  cases gives with
  | nil => rfl
  | cons answered _ =>
      rw [answered] at finished
      contradiction

theorem gives_cons {first : Moment} (answered : generator.advance = (.date date, later)) :
    generator.Gives (first :: dates) ↔ first = date ∧ later.Gives dates := by
  constructor
  · intro gives
    cases gives with
    | cons answeredFirst gives =>
        cases answered.symm.trans answeredFirst
        exact ⟨rfl, gives⟩
  · intro both
    obtain ⟨rfl, gives⟩ := both
    exact .cons answered gives

theorem firsts_of_finished {number : Nat} (finished : generator.advance.1 = .finished) :
    generator.Firsts number accepts [] := by
  refine ⟨[], .nil, fun all _ gives => ?_⟩
  rw [gives_of_finished finished gives, List.filter_nil, List.take_nil]

theorem firsts_of_refused {number : Nat} (upTo : UpTo bound accepts)
    (increasing : ∀ all, generator.Gives all → all.Pairwise (· < ·))
    (answered : generator.advance = (.date date, later)) (refused : accepts date = false) :
    generator.Firsts number accepts [] := by
  refine ⟨[], .nil, fun all _ gives => ?_⟩
  cases all with
  | nil => rw [List.filter_nil, List.take_nil]
  | cons first rest =>
      obtain ⟨rfl, _⟩ := (gives_cons answered).mp gives
      rw [upTo.filter_eq_nil (increasing _ gives) refused, List.take_nil]

theorem Firsts.cons {number : Nat} (firsts : later.Firsts number accepts dates)
    (answered : generator.advance = (.date date, later)) (accepted : accepts date = true) :
    generator.Firsts (number + 1) accepts (date :: dates) := by
  obtain ⟨beginning, gives, same⟩ := firsts
  refine ⟨date :: beginning, (gives_cons answered).mpr ⟨rfl, gives⟩, ?_⟩
  intro all longer givesAll
  obtain ⟨behind, rfl⟩ := longer
  obtain ⟨_, givesLater⟩ := (gives_cons answered).mp givesAll
  rw [List.cons_append, List.filter_cons_of_pos accepted, List.take_succ_cons]
  exact congrArg (date :: ·) (same _ (List.prefix_append beginning behind) givesLater)

/-- Of dates that were taken up to a bound, the accepted ones are the first accepted ones of all that
the generator gives out, if these increase. -/
theorem firsts_of_take {wanted : Nat} (looksUp : bound.zone.isPlain = false) (upTo : UpTo bound accepts)
    (increasing : ∀ all, generator.Gives all → all.Pairwise (· < ·))
    (taken : (generator.take (some bound) wanted).1 = .ok dates) :
    generator.Firsts wanted accepts (dates.filter accepts) := by
  have takes := takes_of_take taken
  clear taken
  induction takes with
  | enough => exact ⟨[], .nil, fun _ _ _ => rfl⟩
  | finished answered => exact firsts_of_finished answered
  | behind answered isLast isBehind =>
      cases isLast
      refine firsts_of_refused upTo increasing answered (Bool.eq_false_iff.mpr fun accepted => ?_)
      rw [Moment.isBefore_eq_lt looksUp] at isBehind
      exact Int.not_lt.mpr (upTo.le_bound _ accepted) (of_decide_eq_true isBehind)
  | @date wanted generator later date rest answered _ takes ih =>
      cases accepted : accepts date with
      | true =>
          have increasingLater : ∀ all, later.Gives all → all.Pairwise (· < ·) := by
            intro all gives
            exact (increasing _ ((gives_cons answered).mpr ⟨rfl, gives⟩)).of_cons
          rw [List.filter_cons_of_pos accepted]
          exact (ih increasingLater).cons answered accepted
      | false =>
          have gives := (gives_cons answered).mpr ⟨rfl, takes.gives⟩
          rw [upTo.filter_eq_nil (increasing _ gives) accepted]
          exact firsts_of_refused upTo increasing answered accepted

theorem le_bound_of_take {wanted : Nat} (looksUp : bound.zone.isPlain = false)
    (taken : (generator.take (some bound) wanted).1 = .ok dates) : ∀ date ∈ dates, date ≤ bound := by
  have takes := takes_of_take taken
  clear taken
  induction takes with
  | enough => exact List.forall_mem_nil _
  | finished => exact List.forall_mem_nil _
  | behind => exact List.forall_mem_nil _
  | date _ within _ ih =>
      have notBehind := within bound rfl
      rw [Moment.isBefore_eq_lt looksUp, decide_eq_false_iff_not] at notBehind
      exact List.forall_mem_cons.mpr ⟨Int.not_lt.mp notBehind, ih⟩

end Generator

namespace Expansion

variable {registry : Registry} {rule : Rule} {start finish : DateTime} {limit : Int}
  {calendar : Calendar} {dates : List Moment}

theorem localize_of_localizeBound {localized : Option Moment}
    (shown : localizeBound calendar (some finish) = some localized) :
    ∃ bound, localized = some bound ∧ calendar.localize finish = some bound := by
  obtain ⟨bound, shows, rfl⟩ := Option.map_eq_some_iff.mp shown
  exact ⟨bound, rfl, shows⟩

/-- A range lists the occurrences up to its finish, without one at the finish if it is excluded. -/
theorem exists_of_between {inclusive : Bool}
    (listed : between registry rule start finish inclusive limit calendar = .ok dates) :
    ∃ all, (occurrences registry rule start (some finish) limit calendar).result = .ok all ∧
      ∀ bound, calendar.localize finish = some bound → bound.zone.isPlain = false →
        dates = if inclusive then all else all.filter (bound.admits false) := by
  rw [between] at listed
  cases result : (occurrences registry rule start (some finish) limit calendar).result with
  | error failure =>
      rw [result] at listed
      contradiction
  | ok all =>
      rw [result] at listed
      refine ⟨all, rfl, fun bound shows looksUp => ?_⟩
      cases inclusive with
      | true => exact (Except.ok.inj listed).symm
      | false =>
          simp only [shows, Moment.isBefore_eq_lt_of_bound looksUp] at listed
          exact (Except.ok.inj listed).symm

theorem lt_of_precedes {zone : Zone} {offset : Int} {earlier later : Moment}
    (constant : zone.constantOffset? = some offset) (precedes : zone.Precedes earlier later) :
    earlier < later := by
  apply precedes.lt_iff.mpr
  intro skipped
  cases zone with
  | steady | fixed => exact Bool.noConfusion skipped
  | varying => contradiction

/-- In a calendar of one offset a range holds the first dates, up to its limit, of all that the rule's
generator gives out and that are not past the finish, or that are before it if it is excluded. -/
theorem firsts_of_between {offset : Int} {inclusive : Bool} (valid : rule.Valid)
    (coherent : start.Coherent) (constant : calendar.zone.constantOffset? = some offset)
    (positive : 0 < limit)
    (listed : between .initial rule start finish inclusive limit calendar = .ok dates) :
    ∃ variant generator bound,
      (Registry.initial.create rule start calendar).result = .ok (variant, generator) ∧
      calendar.localize finish = some bound ∧
      generator.Firsts limit.toNat (bound.admits inclusive) dates := by
  obtain ⟨all, listedAll, kept⟩ := exists_of_between listed
  obtain ⟨variant, generator, localized, found, shown, taken⟩ :=
    taken_of_occurrences positive listedAll
  obtain ⟨bound, rfl, shows⟩ := localize_of_localizeBound shown
  have increasing : ∀ dates, generator.Gives dates → dates.Pairwise (· < ·) := by
    intro dates gives
    exact (Registry.precedes_of_create valid coherent found gives).imp (lt_of_precedes constant)
  have looksUp : bound.zone.isPlain = false := by
    rw [Calendar.zone_of_shown shows]
    exact Zone.isPlain_of_constant constant
  have firsts :=
    Generator.firsts_of_take looksUp (Generator.upTo_admits bound inclusive) increasing taken
  refine ⟨variant, generator, bound, found, shows, ?_⟩
  rw [kept bound shows looksUp]
  cases inclusive with
  | true =>
      have within : all.filter (bound.admits true) = all := by
        apply List.filter_eq_self.mpr
        intro date member
        exact decide_eq_true (Generator.le_bound_of_take looksUp taken date member)
      rw [if_pos rfl, ← within]
      exact firsts
  | false =>
      rw [if_neg Bool.false_ne_true]
      exact firsts

/-- Every day at 09:00 from 1 January 2024 on. -/
def everyDay : Rule := { frequency := .daily }

theorem everyDay_inside (day : Fin 31) :
    63839696400000000 + day.val * 86400000000 < calendarMicros := by
  have small := day.isLt
  simp only [calendarMicros]
  omega

def everyDayAt (day : Fin 31) : WallTime :=
  ⟨63839696400000000 + day.val * 86400000000, everyDay_inside day⟩

def everyDayDates (days : List (Fin 31)) : List Moment :=
  days.map fun day => ⟨everyDayAt day, 0, .utc⟩

/-- The third day is the finish.  It is the last date that the limit admits, and excluded all the same. -/
theorem firsts_everyDay :
    between .initial everyDay (.naive (everyDayAt 0)) (.naive (everyDayAt 2)) false 3 {} =
        .ok (everyDayDates [0, 1]) ∧
      ∃ variant generator bound,
        (Registry.initial.create everyDay (.naive (everyDayAt 0)) {}).result =
          .ok (variant, generator) ∧
        Calendar.localize {} (.naive (everyDayAt 2)) = some bound ∧
        generator.Firsts 3 (bound.admits false) (everyDayDates [0, 1]) := by
  have listed : between .initial everyDay (.naive (everyDayAt 0)) (.naive (everyDayAt 2)) false 3 {} =
      .ok (everyDayDates [0, 1]) := by
    decide +kernel
  exact ⟨listed, @firsts_of_between everyDay (.naive (everyDayAt 0)) (.naive (everyDayAt 2)) 3 {}
    (everyDayDates [0, 1]) 0 false (by decide) (DateTime.coherent_naive _) rfl (by decide) listed⟩

end Expansion

end Recurrence
