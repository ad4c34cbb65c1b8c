import Recurrence.Proofs.Rule.Overrun

namespace Recurrence

/-! Which last dates are read.

A last date is a time in the calendar's own zone or in one that its text names, and it is what that zone
makes of the time (`RuleText.readIn_of_readText`).  So it comes about as dates do in zones that are
known.
-/

variable [Zone.Directory]

/-- A zone that is found by its name, or an offset without a name. -/
def Zone.Known (zone : Zone) : Prop :=
  zone.Listed ∨ ∃ offset mark, zone = .fixed offset none mark

namespace Zone.Known

variable {zone : Zone}

theorem resolve? (known : zone.Known) {name : String} (named : zone.name? = some name) :
    Zone.resolve? name = some zone := by
  rcases known with listed | ⟨offset, mark, rfl⟩
  · exact listed.resolve? named
  · contradiction

theorem isPlain (known : zone.Known) : zone.isPlain = false := by
  rcases known with listed | ⟨offset, mark, rfl⟩
  · exact isPlain_of_hasReader listed.hasReader
  · rfl

theorem agreesWithKey (known : zone.Known) : zone.AgreesWithKey := by
  intro plain
  rw [known.isPlain] at plain
  contradiction

end Zone.Known

variable {calendar : Calendar} {date : Moment}

/-- A last date as a calendar reads it: in whole seconds, in a zone that its text names or in the
calendar's own. -/
structure Moment.ReadIn (calendar : Calendar) (date : Moment) : Prop where
  place : date.zone.Listed ∨ date.zone = calendar.zone
  read : date.zone.localize date.wall = some date
  whole : date.wall.microsecond = 0

namespace Moment.ReadIn

theorem known (readIn : date.ReadIn calendar) (known : calendar.zone.Known) : date.zone.Known := by
  rcases readIn.place with listed | own
  · exact .inl listed
  · rw [own]
    exact known

theorem genuine (readIn : date.ReadIn calendar) (known : calendar.zone.Known) : date.Genuine := by
  rcases readIn.known known with listed | ⟨offset, mark, isFixed⟩
  · exact Moment.genuine_of_localizeWith listed readIn.read
  · refine ⟨⟨false, readIn.read⟩, .inr (by rw [isFixed]; rfl), fun _ key _ _ isKey => ?_⟩
    rw [isFixed] at isKey
    contradiction

end Moment.ReadIn

namespace Until

theorem listed_of_zoned {value rest : List Char} {zone : Zone}
    (cut : zoned value = .ok (some zone, rest)) : zone.Listed := by
  unfold zoned at cut
  split at cut
  · split at cut
    · contradiction
    · simp only at cut
      split at cut
      · contradiction
      · next resolved =>
          cases cut
          exact ⟨_, resolved⟩
  · split at cut
    · cases cut
      exact ⟨"UTC", Zone.resolve?_utc⟩
    · cases cut

theorem readIn_of_read {value : List Char} {made : Moment}
    (reads : Until.read calendar value = .ok (some made)) : made.truncate.ReadIn calendar := by
  obtain ⟨zone, time, ⟨named, rest, parts, cut, _, _, isZone⟩, localized⟩ := read_eq_ok_iff.mp reads
  have wall := Zone.wall_of_localize localized
  have own := Zone.zone_of_localizeWith localized
  refine ⟨?_, ?_, WallTime.microsecond_truncate made.wall⟩
  · change made.zone.Listed ∨ made.zone = calendar.zone
    rw [own, isZone]
    cases named with
    | none => exact .inr rfl
    | some listed => exact .inl (listed_of_zoned cut)
  · change made.zone.localizeWith made.wall.truncate false = some made.truncate
    have read : zone.localizeWith time false = some made := localized
    rw [own, wall, Zone.localizeWith_truncate, read, Option.map_some]

end Until

namespace RuleText

variable {rule : Rule}

theorem spells_of_readText {text : String} {limit : Int} (reads : readText calendar limit text = .ok rule) :
    ∃ entries, Spells calendar text.toList entries rule := by
  rw [readText, bind_eq_ok] at reads
  obtain ⟨checked, passes, reads⟩ := reads
  obtain ⟨rfl, oneLine⟩ := RuleGuard.checkText_eq_ok passes
  obtain ⟨⟨index, read⟩, isRead, rfl⟩ := map_eq_ok.mp reads
  exact ((readPartial_eq_ok_iff_spells oneLine index read).mp isRead).2

/-- A last date comes from the assignment for it. -/
theorem Assigns.exists_read {entries : List (Key × List Char)} (assigns : Assigns calendar entries rule)
    (ends : rule.ending = .afterDate date) :
    ∃ value made, Until.read calendar value = .ok (some made) ∧ date = made.truncate := by
  by_cases isSet : ∃ entry ∈ entries, entry.1.field = .ending
  · obtain ⟨⟨key, value⟩, member, isEnd⟩ := isSet
    have stated := assigns.states (key, value) member
    cases key with
    | lastDate =>
        obtain ⟨made, reads, isDate⟩ := stated
        rw [ends] at isDate
        cases isDate
        exact ⟨value, made, reads, rfl⟩
    | count =>
        obtain ⟨n, _, _, isCount⟩ := stated
        rw [ends] at isCount
        contradiction
    | interval | restriction => contradiction
  · have unset : rule.ending = .never :=
      assigns.unset .ending fun entry member isEnd => isSet ⟨entry, member, isEnd⟩
    rw [ends] at unset
    contradiction

/-- A rule that is read is valid, and its last date is one that the calendar reads. -/
theorem readIn_of_readText {text : String} {limit : Int}
    (reads : readText calendar limit text = .ok rule) :
    rule.Valid ∧ ∀ date, rule.ending = .afterDate date → date.ReadIn calendar := by
  obtain ⟨entries, spells⟩ := spells_of_readText reads
  refine ⟨spells.assigns.valid, fun date ends => ?_⟩
  obtain ⟨value, made, isMade, rfl⟩ := spells.assigns.exists_read ends
  exact Until.readIn_of_read isMade

end RuleText

end Recurrence
