import Recurrence.Calendar
import Recurrence.Proofs.Zone.Clock

namespace Recurrence

/-! What calendars show.

A calendar shows a moment as the clocks of its zone do, unless the moment is one of its own zone and
this zone does not look times up (`Calendar.face_of_shown`).  What a zone shows of a date once more is
ahead of the date only when the zone looks times up and skips this one, by no more than a day
(`Calendar.Fits`).
-/

def DateTime.Coherent : DateTime → Prop
  | .naive _ => True
  | .aware moment => moment.Coherent

theorem DateTime.coherent_naive (time : WallTime) : (DateTime.naive time).Coherent := True.intro

namespace Zone

/-- What a zone shows of a moment when it is asked for the moment once more. -/
def face (zone : Zone) (moment : Moment) : Int :=
  if zone.keeps moment.zone then moment.wall.micros else zone.clock moment.instant

/-- By how much what a zone shows of a moment is ahead of what the moment says. -/
def lead (zone : Zone) (moment : Moment) : Int := zone.face moment - moment.wall.micros

/-- Whether a zone shows a time that it has read behind a gap. -/
def displaces (zone : Zone) (time : WallTime) : Bool := zone.consults && zone.skips time

theorem stands_of_keeps {zone other : Zone} (kept : zone.keeps other = true) :
    zone.consults = false ∧ zone = other := by
  simpa only [keeps, Bool.and_eq_true, Bool.not_eq_true', decide_eq_true_eq] using kept

theorem eq_of_keeps {zone other : Zone} (kept : zone.keeps other = true) : zone = other :=
  (stands_of_keeps kept).2

theorem keeps_self {zone : Zone} (stands : zone.consults = false) : zone.keeps zone = true := by
  simp [keeps, stands]

theorem consults_of_displaces {zone : Zone} {time : WallTime}
    (displaces : zone.displaces time = true) : zone.consults = true :=
  (Bool.and_eq_true_iff.mp displaces).1

theorem not_keeps {zone other : Zone} (consults : zone.consults = true) :
    zone.keeps other = false := by
  simp [keeps, consults]

theorem face_eq_clock {zone : Zone} {moment : Moment} (consults : zone.consults = true) :
    zone.face moment = zone.clock moment.instant := by
  rw [face, not_keeps consults, if_neg Bool.false_ne_true]

theorem coherent_of_clock {moment : Moment}
    (shown : moment.zone.clock moment.instant = moment.wall.micros) : moment.Coherent :=
  fun _ => .inl shown

theorem coherent_of_localize {zone : Zone} {time : WallTime} {moment : Moment}
    (read : zone.localize time = some moment) : moment.Coherent := by
  intro _
  have wall := wall_of_localize read
  have zoneIs := zone_of_localizeWith read
  subst wall
  rw [zoneIs]
  exact .inr read

theorem clock_of_at {zone : Zone} {instant : Int} {moment : Moment}
    (shown : zone.at instant = some moment) : zone.clock moment.instant = moment.wall.micros := by
  rw [instant_of_at shown]
  exact (eq_of_at shown).2.2.symm

theorem coherent_of_at {zone : Zone} {instant : Int} {moment : Moment}
    (shown : zone.at instant = some moment) : moment.Coherent := by
  have zoneIs := (eq_of_at shown).1
  refine coherent_of_clock ?_
  rw [zoneIs]
  exact clock_of_at shown

/-- The clocks of its zone have reached a date that stands there as dates do. -/
theorem face_le_clock {zone : Zone} {moment : Moment} (coherent : moment.Coherent) :
    zone.face moment ≤ zone.clock moment.instant := by
  unfold face
  split
  · next kept =>
      obtain ⟨stands, rfl⟩ := stands_of_keeps kept
      rcases coherent stands with shown | read
      · exact Int.le_of_eq shown.symm
      · obtain ⟨kept, skipped⟩ := clock_of_localize read
        cases skips : moment.zone.skips moment.wall with
        | false => exact Int.le_of_eq (kept skips).symm
        | true => exact Int.le_of_lt (skipped skips).1
  · exact Int.le_refl _

/-- A time that is at least a day ahead of what is shown of a date is read as an instant that is not
earlier. -/
theorem le_of_face_add_day_le {zone : Zone} {earlier later : Moment} (coherent : earlier.Coherent)
    (ahead : zone.face earlier + 86400000000 ≤ later.wall.micros)
    (read : zone.localize later.wall = some later) : earlier ≤ later := by
  have ofClock (shown : zone.clock earlier.instant + 86400000000 ≤ later.wall.micros) :
      earlier ≤ later := Int.le_of_lt (lt_of_clock_add_day_le read shown)
  unfold face at ahead
  split at ahead
  · next kept =>
      obtain ⟨stands, rfl⟩ := stands_of_keeps kept
      rcases coherent stands with shown | localized
      · exact ofClock (by omega)
      · exact le_of_add_day_le localized read (by omega)
  · exact ofClock ahead

end Zone

namespace Calendar

variable {calendar : Calendar} {shown : Moment}

theorem instant_of_shown {moment : Moment}
    (shows : calendar.localize (.aware moment) = some shown) : shown.instant = moment.instant := by
  simp only [localize] at shows
  split at shows
  · cases shows
    rfl
  · exact Zone.instant_of_at shows

theorem face_of_shown {moment : Moment}
    (shows : calendar.localize (.aware moment) = some shown) :
    (shown.wall.micros : Int) = calendar.zone.face moment := by
  simp only [localize] at shows
  unfold Zone.face
  split at shows
  · next keeps =>
      cases shows
      rw [if_pos keeps]
  · next moves =>
      rw [if_neg moves]
      exact (Zone.eq_of_at shows).2.2

theorem zone_of_shown {date : DateTime} (shows : calendar.localize date = some shown) :
    shown.zone = calendar.zone := by
  cases date with
  | naive time => exact Zone.zone_of_localizeWith shows
  | aware moment =>
      simp only [localize] at shows
      split at shows
      · next keeps =>
          cases shows
          exact (Zone.eq_of_keeps keeps).symm
      · exact (Zone.eq_of_at shows).1

/-- What a calendar shows stands in its zone as dates do. -/
theorem coherent_of_shown {date : DateTime} (coherent : date.Coherent)
    (shows : calendar.localize date = some shown) : shown.Coherent := by
  cases date with
  | naive time => exact Zone.coherent_of_localize shows
  | aware moment =>
      simp only [localize] at shows
      split at shows
      · cases shows
        exact coherent
      · exact Zone.coherent_of_at shows

/-- What a calendar shows is what its clocks show, unless it reads a time that they skip. -/
theorem clock_or_skips {date : DateTime} (coherent : date.Coherent)
    (shows : calendar.localize date = some shown) :
    calendar.zone.clock shown.instant = shown.wall.micros ∨
      calendar.zone.skips shown.wall = true ∧ calendar.zone.localize shown.wall = some shown := by
  have ofRead (read : calendar.zone.localize shown.wall = some shown) :
      calendar.zone.clock shown.instant = shown.wall.micros ∨
        calendar.zone.skips shown.wall = true ∧ calendar.zone.localize shown.wall = some shown := by
    cases skips : calendar.zone.skips shown.wall with
    | false => exact .inl ((Zone.clock_of_localize read).1 skips)
    | true => exact .inr ⟨rfl, read⟩
  cases date with
  | naive time =>
      have wall := Zone.wall_of_localize shows
      subst wall
      exact ofRead shows
  | aware moment =>
      simp only [localize] at shows
      split at shows
      · next kept =>
          cases shows
          obtain ⟨stands, sameZone⟩ := Zone.stands_of_keeps kept
          rw [sameZone] at stands ofRead ⊢
          exact (coherent stands).elim .inl ofRead
      · exact .inl (Zone.clock_of_at shows)

/-- How a date that a calendar shows stands to what it shows of the date once more. -/
structure Fits (calendar : Calendar) (shown : Moment) : Prop where
  zone_eq : shown.zone = calendar.zone
  coherent : shown.Coherent
  lead_eq : calendar.zone.displaces shown.wall = false → calendar.zone.lead shown = 0
  lead_pos : calendar.zone.displaces shown.wall = true →
    0 < calendar.zone.lead shown ∧ calendar.zone.lead shown ≤ 86400000000

theorem Fits.lead_nonneg (fits : calendar.Fits shown) : 0 ≤ calendar.zone.lead shown := by
  cases displaces : calendar.zone.displaces shown.wall with
  | false => exact Int.le_of_eq (fits.lead_eq displaces).symm
  | true => exact Int.le_of_lt (fits.lead_pos displaces).1

theorem Fits.wall_le_face (fits : calendar.Fits shown) :
    (shown.wall.micros : Int) ≤ calendar.zone.face shown := by
  have lead_nonneg := fits.lead_nonneg
  rw [Zone.lead] at lead_nonneg
  omega

theorem fits_of_stands (zone_eq : shown.zone = calendar.zone) (coherent : shown.Coherent)
    (stands : calendar.zone.consults = false) : calendar.Fits shown := by
  have keeps : calendar.zone.keeps shown.zone = true := by
    rw [zone_eq]
    exact Zone.keeps_self stands
  refine ⟨zone_eq, coherent, fun _ => ?_, fun displaces => ?_⟩
  · rw [Zone.lead, Zone.face, if_pos keeps, Int.sub_self]
  · simp [Zone.displaces, stands] at displaces

theorem fits_of_consults (zone_eq : shown.zone = calendar.zone) (coherent : shown.Coherent)
    (consults : calendar.zone.consults = true)
    (kept : calendar.zone.skips shown.wall = false →
      calendar.zone.clock shown.instant = shown.wall.micros)
    (skipped : calendar.zone.skips shown.wall = true →
      (shown.wall.micros : Int) < calendar.zone.clock shown.instant ∧
        calendar.zone.clock shown.instant ≤ shown.wall.micros + 86400000000) :
    calendar.Fits shown := by
  have displaces : calendar.zone.displaces shown.wall = calendar.zone.skips shown.wall := by
    rw [Zone.displaces, consults, Bool.true_and]
  refine ⟨zone_eq, coherent, ?_, ?_⟩
  · rw [displaces, Zone.lead, Zone.face_eq_clock consults]
    intro skips
    have shows := kept skips
    omega
  · rw [displaces, Zone.lead, Zone.face_eq_clock consults]
    intro skips
    have ahead := skipped skips
    omega

theorem fits_of_localize {time : WallTime} (read : calendar.zone.localize time = some shown) :
    calendar.Fits shown := by
  have zone_eq := Zone.zone_of_localizeWith read
  have coherent := Zone.coherent_of_localize read
  cases consults : calendar.zone.consults with
  | false => exact fits_of_stands zone_eq coherent consults
  | true =>
      obtain ⟨kept, skipped⟩ := Zone.clock_of_localize read
      rw [← Zone.wall_of_localize read] at kept skipped
      exact fits_of_consults zone_eq coherent consults kept skipped

theorem fits_of_shown {date : DateTime} (coherent : date.Coherent)
    (shows : calendar.localize date = some shown) : calendar.Fits shown := by
  cases date with
  | naive time => exact fits_of_localize shows
  | aware moment =>
      have zone_eq := zone_of_shown shows
      have shownCoherent := coherent_of_shown coherent shows
      cases consults : calendar.zone.consults with
      | false => exact fits_of_stands zone_eq shownCoherent consults
      | true =>
          have moves := @Zone.not_keeps _ moment.zone consults
          simp only [localize, moves, Bool.false_eq_true, if_false] at shows
          have clocks := Zone.clock_of_at shows
          refine fits_of_consults zone_eq shownCoherent consults (fun _ => clocks) fun skips => ?_
          rw [Zone.not_skips_of_clock clocks] at skips
          contradiction

end Calendar

end Recurrence
