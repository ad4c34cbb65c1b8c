import Recurrence.Calendar
import Recurrence.Rule.Error
import Recurrence.Rule.Stretch

namespace Recurrence

/-! The last date of a rule as it stands in a rule text.

A date is eight digits, with the letter T and six more digits when it has a time of day.  It belongs to
UTC when a Z follows the time, to a named zone when `TZID=` and the name and a colon stand before it,
and to the calendar's zone otherwise.  Every field is read at its distance from the start of the date;
there is no answer where a field asks for a character behind the end of the text.
-/

namespace Until

/-- Whether the value ends in the mark of UTC. -/
def scanUtc (value : Stretch) : Option Bool :=
  if value.stop - value.start = 16 then (value.text[value.stop - 1]?).map fun c => c == 'Z'
  else some false

/-- The zone that a value names and the date that is left. -/
def scanZoned [Zone.Directory] (value : Stretch) :
    Option (Except RuleFault (Option Zone × Stretch)) :=
  if value.startsWith "TZID=" then
    match value.find? ':' with
    | none => some (.error .zoneWithoutColon)
    | some colon =>
        let named : Stretch := { value with start := value.start + 5, stop := colon }
        let name := String.ofList named.chars
        match Zone.resolve? name with
        | none => some (.error (.unknownZone name))
        | some zone => some (.ok (some zone, { value with start := colon + 1 }))
  else
    (scanUtc value).map fun utc =>
      if utc then .ok (some .utc, { value with stop := value.stop - 1 }) else .ok (none, value)

/-- Two characters of a date, some way behind its start. -/
def scanField (date : Stretch) (domain : Domain) (distance : Nat) : Option (Option Int) :=
  Stretch.scanBounded domain
    ⟨date.text, date.start + distance, date.start + distance + 2⟩

/-- The fields of the time of day, which is midnight when the date has none; nothing when the date has
not the length of one, or no T in its place. -/
def scanTime (date : Stretch) : Option (Option (Option Int × Option Int × Option Int)) :=
  if date.stop - date.start = 8 then some (some (some 0, some 0, some 0))
  else if date.stop - date.start = 15 then
    match date.text[date.start + 8]? with
    | none => none
    | some c =>
        if c = 'T' then do
          let hour ← scanField date ⟨0, 23, true⟩ 9
          let minute ← scanField date ⟨0, 59, true⟩ 11
          let second ← scanField date ⟨0, 60, true⟩ 13
          return some (hour, minute, second)
        else some none
  else some none

def scanParts (date : Stretch) : Option (Option DateParts) := do
  match ← scanTime date with
  | none => return none
  | some (hour, minute, second) =>
      let year ← Stretch.scanNat ⟨date.text, date.start, date.start + 4⟩
      let month ← scanField date ⟨1, 12, true⟩ 4
      let day ← scanField date ⟨1, 31, true⟩ 6
      return do DateParts.mk (← year) (← month) (← day) (← hour) (← minute) (← second)

end Until

end Recurrence
