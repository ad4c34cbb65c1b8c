import Recurrence.Civil
import Recurrence.Weekday

namespace Recurrence

/-! Wall-clock times: a date and a time of day as a clock shows them, without a zone.

The one number of a `WallTime` is the count of microseconds since midnight of day 0, so the order of
the numbers is the order of the times and shifting is addition.  No wall-clock time lies outside the
years 1 to 9999: every operation that could leave them answers `none` instead.
-/

def microsPerSecond : Nat := 1000000

def microsPerDay : Nat := 86400000000

/-- The number of microseconds in the years 1 to 9999. -/
def calendarMicros : Nat := 315537897600000000

structure WallTime where
  micros : Nat
  micros_lt : micros < calendarMicros
deriving DecidableEq, Repr

namespace WallTime

def ofMicros? (micros : Int) : Option WallTime :=
  if inside : 0 ≤ micros ∧ micros < calendarMicros then
    some ⟨micros.toNat, by
      have lower := inside.1
      have upper := inside.2
      omega⟩
  else none

def ofSeconds? (seconds : Nat) : Option WallTime :=
  ofMicros? (seconds * microsPerSecond : Nat)

def day (time : WallTime) : Nat := time.micros / microsPerDay

/-- Whole seconds since midnight of day 0. -/
def seconds (time : WallTime) : Nat := time.micros / microsPerSecond

def secondOfDay (time : WallTime) : Nat := time.seconds % 86400

def hour (time : WallTime) : Nat := time.secondOfDay / 3600

def minute (time : WallTime) : Nat := time.secondOfDay / 60 % 60

def second (time : WallTime) : Nat := time.secondOfDay % 60

def microsecond (time : WallTime) : Nat := time.micros % microsPerSecond

def microOfDay (time : WallTime) : Nat := time.micros % microsPerDay

def date (time : WallTime) : CivilDate := CivilDate.ofDay time.day

def weekday (time : WallTime) : Weekday := Weekday.ofDay time.day

def addMicros (time : WallTime) (micros : Int) : Option WallTime :=
  ofMicros? (time.micros + micros)

def addSeconds (time : WallTime) (seconds : Int) : Option WallTime :=
  time.addMicros (seconds * 1000000)

def addDays (time : WallTime) (days : Int) : Option WallTime :=
  time.addMicros (days * 86400000000)

def truncate (time : WallTime) : WallTime where
  micros := time.micros - time.microsecond
  micros_lt := Nat.lt_of_le_of_lt (Nat.sub_le _ _) time.micros_lt

instance : LE WallTime := ⟨fun first second => first.micros ≤ second.micros⟩

instance : LT WallTime := ⟨fun first second => first.micros < second.micros⟩

instance (first second : WallTime) : Decidable (first ≤ second) :=
  inferInstanceAs (Decidable (first.micros ≤ second.micros))

instance (first second : WallTime) : Decidable (first < second) :=
  inferInstanceAs (Decidable (first.micros < second.micros))

theorem eq_of_micros {first second : WallTime} (same : first.micros = second.micros) :
    first = second := by
  cases first
  cases second
  simp only [mk.injEq]
  exact same

theorem ofMicros?_eq_some {micros : Int} {time : WallTime} :
    ofMicros? micros = some time ↔ (time.micros : Int) = micros := by
  have bound := time.micros_lt
  unfold ofMicros?
  split
  · next inside =>
      obtain ⟨lower, upper⟩ := inside
      constructor
      · intro same
        cases same
        simp only
        omega
      · intro same
        cases time
        simp only [Option.some.injEq, mk.injEq] at same ⊢
        omega
  · next outside =>
      simp only [reduceCtorEq, false_iff]
      intro same
      omega

theorem ofMicros?_isSome {micros : Int} :
    (ofMicros? micros).isSome = true ↔ 0 ≤ micros ∧ micros < calendarMicros := by
  unfold ofMicros?
  split
  · next inside => simpa using inside
  · next outside => simpa using outside

theorem micros_of_addSeconds {time shifted : WallTime} {seconds : Int}
    (moved : time.addSeconds seconds = some shifted) :
    (shifted.micros : Int) = time.micros + seconds * 1000000 :=
  ofMicros?_eq_some.1 moved

theorem micros_of_addDays {time shifted : WallTime} {days : Int}
    (moved : time.addDays days = some shifted) :
    (shifted.micros : Int) = time.micros + days * 86400000000 :=
  ofMicros?_eq_some.1 moved

theorem day_lt (time : WallTime) : time.day < dayCount := by
  have bound := time.micros_lt
  simp only [day, microsPerDay, dayCount, calendarMicros] at *
  omega

end WallTime

end Recurrence
