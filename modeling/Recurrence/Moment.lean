import Recurrence.Zone

namespace Recurrence

/-! Moments: wall-clock times that belong to a zone, and date-times that may or may not.

Moments are ordered by their instants; only two of one plain zone are compared by what they show
(`Moment.isBefore`).  `Zone.localize` reads a wall-clock time in a zone and `Zone.at` shows an instant in
one; both answer `none` when the calendar does not reach that far.
-/

/-- A wall-clock time in a zone, with the microseconds that its clock is ahead of UTC. -/
structure Moment where
  wall : WallTime
  offset : Int
  zone : Zone
deriving DecidableEq, Repr

namespace Moment

def instant (moment : Moment) : Instant := moment.wall.instant moment.offset

def same (first second : Moment) : Bool := first.instant == second.instant

instance : LE Moment := ⟨fun first second => first.instant ≤ second.instant⟩

instance : LT Moment := ⟨fun first second => first.instant < second.instant⟩

instance (first second : Moment) : Decidable (first ≤ second) :=
  inferInstanceAs (Decidable (first.instant ≤ second.instant))

instance (first second : Moment) : Decidable (first < second) :=
  inferInstanceAs (Decidable (first.instant < second.instant))

/-- Whether a moment counts as earlier than another one. -/
def isBefore (first second : Moment) : Bool :=
  if first.zone.isPlain && decide (first.zone = second.zone) then decide (first.wall < second.wall)
  else decide (first < second)

theorem isBefore_eq_lt {first second : Moment} (looksUp : first.zone.isPlain = false) :
    first.isBefore second = decide (first < second) := by
  rw [isBefore, looksUp, Bool.false_and, if_neg Bool.false_ne_true]

theorem isBefore_eq_lt_of_bound {first second : Moment} (looksUp : second.zone.isPlain = false) :
    first.isBefore second = decide (first < second) := by
  by_cases same : first.zone = second.zone
  · exact isBefore_eq_lt (by rw [same, looksUp])
  · rw [isBefore, decide_eq_false same, Bool.and_false, if_neg Bool.false_ne_true]

theorem isBefore_eq_wall_lt {first second : Moment} (stands : first.zone.isPlain = true)
    (same : first.zone = second.zone) : first.isBefore second = decide (first.wall < second.wall) := by
  rw [isBefore, stands, decide_eq_true same, Bool.true_and, if_pos rfl]

def truncate (moment : Moment) : Moment := { moment with wall := moment.wall.truncate }

end Moment

inductive DateTime
  | naive (time : WallTime)
  | aware (moment : Moment)
deriving DecidableEq, Repr

def DateTime.wall : DateTime → WallTime
  | .naive time => time
  | .aware moment => moment.wall

namespace Zone

/-- Reads a wall-clock time in a zone.  Where the zone repeats or skips it, `choice` decides. -/
def localizeWith (zone : Zone) (time : WallTime) (choice : Bool) : Option Moment :=
  match zone with
  | .steady _ offset => some ⟨time, offset * 1000000, zone⟩
  | .fixed offset _ _ => some ⟨time, offset, zone⟩
  | .varying history manner =>
      (history.phaseFor manner choice time).map fun phase => ⟨time, phase.offset * 1000000, zone⟩

def localize (zone : Zone) (time : WallTime) : Option Moment :=
  zone.localizeWith time false

def «at» (zone : Zone) (instant : Instant) : Option Moment :=
  match zone with
  | .steady _ offset => shift (offset * 1000000)
  | .fixed offset _ _ => shift offset
  | .varying history _ =>
      (history.showAt instant).map fun shown => ⟨shown.1, shown.2.offset * 1000000, zone⟩
where
  /-- Both the instant and the time shown must lie inside the calendar. -/
  shift (offset : Int) : Option Moment := do
    let _ ← WallTime.ofMicros? instant
    let time ← WallTime.ofMicros? (instant + offset)
    return ⟨time, offset, zone⟩

/-- Whether a moment of the second zone stands as it is in the first: both are one zone, and it does not
look the time up again. -/
def keeps (zone other : Zone) : Bool :=
  !zone.consults && decide (zone = other)

theorem wall_of_localizeWith {zone : Zone} {time : WallTime} {choice : Bool} {moment : Moment}
    (read : zone.localizeWith time choice = some moment) : moment.wall = time := by
  cases zone with
  | steady | fixed =>
      simp only [localizeWith, Option.some.injEq] at read
      rw [← read]
  | varying history manner =>
      simp only [localizeWith, Option.map_eq_some_iff] at read
      obtain ⟨phase, _, made⟩ := read
      rw [← made]

theorem zone_of_localizeWith {zone : Zone} {time : WallTime} {choice : Bool} {moment : Moment}
    (read : zone.localizeWith time choice = some moment) : moment.zone = zone := by
  cases zone with
  | steady | fixed =>
      simp only [localizeWith, Option.some.injEq] at read
      rw [← read]
  | varying history manner =>
      simp only [localizeWith, Option.map_eq_some_iff] at read
      obtain ⟨phase, _, made⟩ := read
      rw [← made]

theorem wall_of_localize {zone : Zone} {time : WallTime} {moment : Moment}
    (read : zone.localize time = some moment) : moment.wall = time :=
  wall_of_localizeWith read

end Zone

end Recurrence
