import Recurrence.WallTime

namespace Recurrence

/-! Time zones and the two ways between instants and wall-clock times.

An instant is a number of microseconds since midnight of day 0 in UTC.  A `Zone.History` lists the
moments at which a zone changed its offset; from an instant it gives exactly one offset, from a
wall-clock time one, none (a skipped hour) or two (a repeated hour).  `Reading` names these cases, and
`History.phaseFor` decides the last two in one of two manners.  Every history is regular: its changes
are at least 90 hours apart and none is longer than a day, so no wall-clock time has to do with two of
them.
-/

/-- Microseconds since midnight of day 0 in UTC; unlike a `WallTime` it may lie outside the years 1
to 9999. -/
abbrev Instant := Int

/-- Seconds from midnight of day 0 to 1 January 1970. -/
def unixEpoch : Int := 62135596800

def Instant.unixSeconds (instant : Instant) : Int := instant / 1000000 - unixEpoch

/-- The instant at which a clock that is `offset` microseconds ahead of UTC shows a time. -/
def WallTime.instant (time : WallTime) (offset : Int) : Instant :=
  time.micros - offset

namespace Zone

/-- What holds in a zone between two changes: the seconds that its clocks are ahead of UTC, and how
many of these are daylight saving. -/
structure Phase where
  offset : Int
  saving : Int
deriving DecidableEq, Repr

/-- A change of the clocks: from this Unix second on the phase holds. -/
structure Shift where
  second : Int
  phase : Phase
deriving DecidableEq, Repr

/-- The 90 hours in which a zone changes its clocks no more than once. -/
def spacing : Int := 324000

def calendarEnd : Int := dayCount * 86400 - unixEpoch

/-- Whether the clocks of a phase are at most 18 hours away from UTC. -/
def Phase.isNear (phase : Phase) : Bool := decide (-64800 ≤ phase.offset ∧ phase.offset ≤ 64800)

/-- The phase after some changes, of which the latest stands first. -/
def phaseAfter (initial : Phase) : List Shift → Phase
  | [] => initial
  | latest :: _ => latest.phase

def lastChange : List Shift → Int
  | [] => -unixEpoch
  | latest :: _ => latest.second

/-- Whether changes are at least 90 hours apart from each other and from both ends of the calendar, and
none moves the clocks by more than a day. -/
def isRegular (initial : Phase) : List Shift → Bool
  | [] => initial.isNear
  | latest :: earlier =>
      latest.phase.isNear && decide (lastChange earlier + spacing ≤ latest.second) &&
        decide (latest.second + spacing ≤ calendarEnd) &&
        decide ((phaseAfter initial earlier).offset - latest.phase.offset ≤ 86400) &&
        decide (latest.phase.offset - (phaseAfter initial earlier).offset ≤ 86400) &&
        isRegular initial earlier

/-- The phases of a named zone: one for the time before all changes, and the changes from the latest
to the earliest. -/
structure History where
  name : String
  initial : Phase
  shifts : List Shift
  regular : isRegular initial shifts = true := by decide +kernel
deriving Repr

instance : DecidableEq History := fun first second =>
  decidable_of_iff
    (first.name = second.name ∧ first.initial = second.initial ∧ first.shifts = second.shifts) (by
      cases first
      cases second
      simp)

inductive Reading
  | skipped
  | once (phase : Phase)
  | twice (first second : Phase)
deriving DecidableEq, Repr

/-- What the phases that were guessed for a time mean; two with one offset are the same reading. -/
def Reading.ofGuesses : List Phase → Reading
  | [first, second] => if first.offset = second.offset then once first else twice first second
  | [phase] => once phase
  | _ => skipped

/-- How a zone with a history finds the offset of a wall-clock time.

* `reader`: it looks the time up and is asked with a flag for daylight saving.
* `plain`: every time stands in the zone as it is.  The zone may carry a key; `mark` tells apart zones
  that were declared apart. -/
inductive Manner
  | reader
  | plain (key : Option String) (mark : Nat)
deriving DecidableEq, Repr

namespace History

/-- The phase at a Unix second: the one of the last change that is not later. -/
def phaseAt (history : History) (second : Int) : Phase :=
  match history.shifts.find? fun shift => shift.second ≤ second with
  | some shift => shift.phase
  | none => history.initial

def showAt (history : History) (instant : Instant) : Option (WallTime × Phase) := do
  let phase := history.phaseAt instant.unixSeconds
  let _ ← WallTime.ofMicros? instant
  let time ← WallTime.ofMicros? (instant + phase.offset * 1000000)
  return (time, phase)

/-- The phase that makes the zone show `time`, as it is guessed from the phase in force when a UTC
clock shows `probe`: none when the guess is refuted. -/
def guess (history : History) (time probe : WallTime) : Option (Option Phase) := do
  let phase := history.phaseAt (Instant.unixSeconds (probe.instant 0))
  let shown ← history.showAt (time.instant (phase.offset * 1000000))
  return if shown.1 = time then some shown.2 else none

def guessFrom (history : History) (time : WallTime) (days : Int) : Option (Option Phase) :=
  match time.addDays days with
  | some probe => history.guess time probe
  | none => some none

def guesses (history : History) (time : WallTime) : Option (List Phase) := do
  let before ← history.guessFrom time (-1)
  let after ← history.guessFrom time 1
  return before.toList ++ after.toList

/-- How often the zone shows a wall-clock time; none when an instant involved lies outside the
calendar. -/
def read (history : History) (time : WallTime) : Option Reading :=
  (history.guesses time).map Reading.ofGuesses

/-- Of two phases that show the same time: the one with daylight saving or without, as asked.  If
that does not decide, the one with the earlier instant when daylight saving is asked for, and the
later one when it is not. -/
def prefer (saving : Bool) (first second : Phase) : Phase :=
  if (first.saving != 0) != (second.saving != 0) then
    if (first.saving != 0) == saving then first else second
  else if (decide (second.offset ≤ first.offset)) == saving then first
  else second

/-- Six hours, the stride in which a skipped time is left: towards earlier times unless daylight
saving is asked for. -/
def stride (saving : Bool) : Int := if saving then 21600 else -21600

def phaseWithin (history : History) (saving : Bool) : Nat → WallTime → Option Phase
  | 0, _ => none
  | strides + 1, time =>
      match history.read time with
      | none => none
      | some (.once phase) => some phase
      | some (.twice first second) => some (prefer saving first second)
      | some .skipped =>
          (time.addSeconds (stride saving)).bind (phaseWithin history saving strides)

/-- The phase of a wall-clock time that is left to stand as it is: the one that shows it.  Of a repeated
time the first phase is taken, and of a skipped one the phase before the gap; the other one in each case
if the later reading is asked for. -/
def phaseStanding (history : History) (later : Bool) (time : WallTime) : Phase :=
  let before := history.phaseAt (Instant.unixSeconds (time.instant 86400000000))
  let after := history.phaseAt (Instant.unixSeconds (time.instant (-86400000000)))
  let shows (phase : Phase) : Bool :=
    (history.phaseAt (Instant.unixSeconds (time.instant (phase.offset * 1000000)))).offset ==
      phase.offset
  if shows before == shows after then if later then after else before
  else if shows before then before
  else after

/-- The phase for a wall-clock time.

A reader gives a skipped time the phase from before the gap, or from after it when daylight saving is
asked for.  Four strides for each day of the calendar leave it on any side, so the bound is never met.  In
the plain manner every time stands, and `choice` asks for its later reading. -/
def phaseFor (history : History) (manner : Manner) (choice : Bool) (time : WallTime) : Option Phase :=
  match manner with
  | .reader => history.phaseWithin choice (4 * dayCount) time
  | .plain _ _ => some (history.phaseStanding choice time)

end History

end Zone

/-- A time zone.

* `steady`: a named zone whose offset, in seconds, never changed.
* `varying`: a zone with a history.  If it is read in the plain manner, it is named by its key alone.
* `fixed`: an offset alone, in microseconds.  It may carry a key, which names a zone without having its
  rules; `mark` tells apart zones that were declared apart. -/
inductive Zone
  | steady (name : String) (offset : Int)
  | varying (history : Zone.History) (manner : Zone.Manner)
  | fixed (offset : Int) (key : Option String) (mark : Nat)
deriving DecidableEq, Repr

namespace Zone

def utc : Zone := .steady "UTC" 0

def name? : Zone → Option String
  | .steady name _ => some name
  | .varying history .reader => some history.name
  | .varying _ (.plain key _) => key
  | .fixed _ key _ => key

/-- The microseconds that the clocks of a zone without changes are ahead of UTC. -/
def constantOffset? : Zone → Option Int
  | .steady _ offset => some (offset * 1000000)
  | .varying _ _ => none
  | .fixed offset _ _ => some offset

/-- Whether a zone looks wall-clock times up in its history. -/
def consults : Zone → Bool
  | .varying _ .reader => true
  | _ => false

/-- Whether the times of a zone stand as they are although its offset changes. -/
def isPlain : Zone → Bool
  | .varying _ (.plain _ _) => true
  | _ => false

theorem not_consults_of_isPlain {zone : Zone} (plain : zone.isPlain = true) :
    zone.consults = false := by
  cases zone with
  | steady | fixed => rfl
  | varying history manner =>
      cases manner with
      | reader => contradiction
      | plain key mark => rfl

theorem isPlain_of_constant {zone : Zone} {offset : Int}
    (constant : zone.constantOffset? = some offset) : zone.isPlain = false := by
  cases zone with
  | steady | fixed => rfl
  | varying history manner => contradiction

end Zone

end Recurrence
