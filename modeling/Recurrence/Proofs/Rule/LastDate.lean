import Recurrence.Proofs.Calendar
import Recurrence.Proofs.Rule.Until
import Recurrence.Proofs.Zone.Fraction

namespace Recurrence

/-! The last date of a rule is read back.

A wall-clock time is written without its instant only where its zone shows it once, and there reading it gives
the instant at which the clocks show it (`Zone.exists_localize_of_showsOnce`).  The other forms are in UTC, where
a part of a second is lost, and a zone that is neither asked about a time nor named is taken to show every time
once: these two ways apart (`RuleText.Moves`) the instant that is read back is the one that was written
(`RuleText.read_dateForm`).
-/

namespace Zone

variable {zone : Zone} {time : WallTime}

/-- What the clocks of a plain zone show stands there with one choice or the other. -/
theorem exists_localizeWith_of_clock {instant : Int} (plain : zone.isPlain = true)
    (shown : zone.clock instant = time.micros) :
    ∃ choice, zone.localizeWith time choice = some ⟨time, zone.offsetAt instant, zone⟩ := by
  cases zone with
  | steady | fixed => contradiction
  | varying history manner =>
      cases manner with
      | reader => contradiction
      | plain key mark =>
          obtain ⟨lower, upper⟩ := history.near_of_clock shown
          obtain ⟨turn, before, after, turns⟩ := history.exists_turns
            ((time.micros : Int) - 86400000000) ((time.micros : Int) + 86400000000) (by omega)
          have standing (choice : Bool) : (history.phaseStanding choice time).offset = _ :=
            History.offset_phaseStanding turns choice (by omega) (by omega)
          rw [clock_of_turns turns (by omega) (by omega)] at shown
          rw [offsetAt, turns.phase instant (by omega) (by omega)]
          simp only [localizeWith, History.phaseFor, Option.map_some, Option.some.injEq,
            Moment.mk.injEq, true_and, and_true]
          by_cases turned : instant < turn
          · refine ⟨false, ?_⟩
            rw [if_pos turned] at shown ⊢
            rw [standing false, if_pos (by omega)]
            simp only [Bool.false_eq_true, if_false, ite_self]
          · refine ⟨true, ?_⟩
            rw [if_neg turned] at shown ⊢
            have isAfter : turn ≤ (time.micros : Int) - after.offset * 1000000 := by omega
            simp only [standing true, if_pos isAfter, if_true, ite_self]

theorem exists_read_of_localizeWith {choice : Bool} {moment : Moment}
    (localized : zone.localizeWith time choice = some moment) :
    ∃ choice, moment.zone.localizeWith moment.wall choice = some moment := by
  refine ⟨choice, ?_⟩
  rw [wall_of_localizeWith localized, zone_of_localizeWith localized, localized]

theorem exists_constantOffset (looksUp : zone.isPlain = false) (stands : zone.consults = false) :
    ∃ offset, zone.constantOffset? = some offset := by
  cases zone with
  | steady | fixed => exact ⟨_, rfl⟩
  | varying history manner => cases manner <;> contradiction

theorem exists_localize_of_isPlain (plain : zone.isPlain = true) (time : WallTime) :
    ∃ read, zone.localize time = some read := by
  cases zone with
  | steady | fixed => contradiction
  | varying history manner =>
      cases manner with
      | reader => contradiction
      | plain key mark => exact ⟨_, rfl⟩

theorem isPlain_of_hasReader (reader : zone.hasReader = true) : zone.isPlain = false := by
  cases zone with
  | steady | fixed => rfl
  | varying history manner => cases manner <;> first | rfl | contradiction

theorem read_of_judge {history : History} (once : showsOnce.judge time history = some true) :
    ∃ phase, history.read time = some (.once phase) := by
  simp only [showsOnce.judge, Option.map_eq_some_iff] at once
  obtain ⟨reading, reads, isOnce⟩ := once
  cases reading with
  | once phase => exact ⟨phase, reads⟩
  | skipped | twice => contradiction

theorem phaseFor_of_once {history : History} {phase : Phase}
    (reads : history.read time = some (.once phase)) (choice : Bool) :
    history.phaseFor .reader choice time = some phase := by
  have opened : history.phaseFor .reader choice time =
      history.phaseWithin choice (14608235 + 1) time := rfl
  rw [opened, History.phaseWithin, reads]

variable [Directory]

/-- Where a time is shown once, no choice is left in reading it. -/
theorem localizeWith_of_showsOnce (reader : zone.hasReader = true)
    (once : zone.showsOnce time = some true) (choice : Bool) :
    zone.localizeWith time choice = zone.localize time := by
  cases zone with
  | steady => rfl
  | fixed => contradiction
  | varying history manner =>
      cases manner with
      | plain key mark => contradiction
      | reader =>
          obtain ⟨phase, reads⟩ := read_of_judge once
          simp only [localize, localizeWith, phaseFor_of_once reads]

/-- Unless it is plain, a zone that shows a time once reads it as the instant at which its clocks show it. -/
theorem exists_localize_of_showsOnce (looksUp : zone.isPlain = false)
    (once : zone.showsOnce time = some true) :
    ∃ read, zone.localize time = some read ∧
      ∀ instant, zone.clock instant = time.micros → read.offset = zone.offsetAt instant := by
  cases zone with
  | steady | fixed => exact ⟨_, rfl, fun _ _ => rfl⟩
  | varying history manner =>
      cases manner with
      | plain key mark => contradiction
      | reader =>
          obtain ⟨phase, reads⟩ := read_of_judge once
          refine ⟨⟨time, phase.offset * 1000000, .varying history .reader⟩, ?_, fun instant shown => ?_⟩
          · simp only [localize, localizeWith, phaseFor_of_once reads, Option.map_some]
          · exact (offsetAt_of_once shown reads).symm

theorem showsOnce_truncate (zone : Zone) (time : WallTime) :
    zone.showsOnce time.truncate = zone.showsOnce time := by
  have judged (history : History) :
      showsOnce.judge time.truncate history = showsOnce.judge time history := by
    simp only [showsOnce.judge, History.read_truncate]
  have judgedNamed (key : Option String) :
      showsOnce.judgeNamed time.truncate key = showsOnce.judgeNamed time key := by
    simp only [showsOnce.judgeNamed, judged]
  unfold showsOnce
  simp only [judged, judgedNamed]

/-- A zone without a reader is judged by the zone that its key names. -/
theorem showsOnce_of_not_hasReader {key : String} (readless : zone.hasReader = false)
    (isKey : zone.name? = some key) (once : zone.showsOnce time = some true) :
    ∃ named, resolve? key = some named ∧ named.hasReader = true ∧
      named.showsOnce time = some true := by
  have judged : showsOnce.judgeNamed time (some key) = some true := by
    cases zone with
    | steady => contradiction
    | fixed offset own mark =>
        obtain rfl : own = some key := isKey
        exact once
    | varying history manner =>
        cases manner with
        | reader => contradiction
        | plain own mark =>
            obtain rfl : own = some key := isKey
            exact once
  simp only [showsOnce.judgeNamed] at judged
  cases resolved : resolve? key with
  | none =>
      simp [resolved] at judged
  | some named =>
      have reader : named.hasReader = true := Listed.hasReader ⟨key, resolved⟩
      rw [resolved] at judged
      refine ⟨named, rfl, reader, ?_⟩
      cases named with
      | steady => rfl
      | fixed => contradiction
      | varying history manner =>
          cases manner with
          | plain own mark => contradiction
          | reader => exact judged

end Zone

section

variable [Zone.Directory]

/-- What is assumed of a date in a zone without a reader: if the zone that its key names shows the date's
time once, the date has the offset of that zone. -/
def Moment.AgreesWithKey (date : Moment) : Prop :=
  date.zone.hasReader = false → ∀ key named shown, date.zone.name? = some key →
    Zone.resolve? key = some named → named.showsOnce date.wall = some true →
    named.localize date.wall = some shown → date.offset = shown.offset

/-- Dates as they come about: a wall-clock time is read in a zone that is found by its name, or it stands in a
zone without a reader, with either choice for a repeated or skipped time. -/
structure Moment.Genuine (date : Moment) : Prop where
  read : ∃ choice, date.zone.localizeWith date.wall choice = some date
  known : date.zone.Listed ∨ date.zone.hasReader = false
  keyed : date.AgreesWithKey

/-- Dates that are read in a zone that is found by its name are genuine, whatever is chosen for a repeated or
skipped time. -/
theorem Moment.genuine_of_localizeWith {zone : Zone} {time : WallTime} {choice : Bool} {date : Moment}
    (listed : zone.Listed) (read : zone.localizeWith time choice = some date) : date.Genuine := by
  have own := Zone.zone_of_localizeWith read
  refine ⟨Zone.exists_read_of_localizeWith read, .inl (by rw [own]; exact listed), fun readless => ?_⟩
  rw [own, listed.hasReader] at readless
  contradiction

theorem Moment.AgreesWithKey.truncate {date : Moment} (agrees : date.AgreesWithKey) :
    date.truncate.AgreesWithKey := by
  intro readless key named shown isKey resolved once localized
  change named.showsOnce date.wall.truncate = some true at once
  change named.localize date.wall.truncate = some shown at localized
  rw [Zone.showsOnce_truncate] at once
  rw [Zone.localize, Zone.localizeWith_truncate, Option.map_eq_some_iff] at localized
  obtain ⟨longer, localized, rfl⟩ := localized
  exact agrees readless key named longer isKey resolved once localized

/-- Dropping the fraction of the second leaves a date such as it may come about. -/
theorem Moment.Genuine.truncate {date : Moment} (genuine : date.Genuine) : date.truncate.Genuine where
  read := Zone.exists_read_truncate genuine.read
  known := genuine.known
  keyed := genuine.keyed.truncate

/-- What is assumed of a plain zone: all of its dates agree with the zone that its key names. -/
def Zone.AgreesWithKey (zone : Zone) : Prop :=
  zone.isPlain = true → ∀ date : Moment, date.zone = zone →
    (∃ choice, zone.localizeWith date.wall choice = some date) → date.AgreesWithKey

end

theorem Moment.wall_eq_of_instant {first second : Moment} (instant : first.instant = second.instant)
    (offset : first.offset = second.offset) : first.wall = second.wall := by
  have same : (first.wall.micros : Int) - first.offset = second.wall.micros - second.offset := instant
  apply WallTime.eq_of_micros
  omega

/-- Dates of one wall-clock time are told apart by their offsets. -/
theorem Moment.instant_eq_iff {first second : Moment} (wall : first.wall = second.wall) :
    first.instant = second.instant ↔ first.offset = second.offset := by
  have opened : first.instant = second.instant ↔
      (first.wall.micros : Int) - first.offset = second.wall.micros - second.offset := Iff.rfl
  rw [opened, wall]
  omega

/-- What a calendar in a plain zone shows of a date stands in its zone. -/
theorem Calendar.exists_read_of_shown {calendar : Calendar} {date shown : Moment}
    (plain : calendar.zone.isPlain = true)
    (read : ∃ choice, date.zone.localizeWith date.wall choice = some date)
    (shows : calendar.localize (.aware date) = some shown) :
    ∃ choice, calendar.zone.localizeWith shown.wall choice = some shown := by
  simp only [localize] at shows
  split at shows
  · next kept =>
      cases shows
      rw [Zone.eq_of_keeps kept]
      exact read
  · obtain ⟨zone, offset, wall⟩ := Zone.eq_of_at shows
    obtain ⟨choice, localized⟩ := Zone.exists_localizeWith_of_clock plain wall.symm
    refine ⟨choice, ?_⟩
    rw [localized, ← offset, ← zone]

theorem Calendar.clock_of_shown {calendar : Calendar} {date shown : Moment}
    (looksUp : calendar.zone.isPlain = false)
    (read : ∃ choice, date.zone.localizeWith date.wall choice = some date)
    (shows : calendar.localize (.aware date) = some shown) :
    calendar.zone.clock shown.instant = shown.wall.micros := by
  simp only [localize] at shows
  split at shows
  · next kept =>
      cases shows
      obtain ⟨stands, own⟩ := Zone.stands_of_keeps kept
      obtain ⟨choice, read⟩ := read
      rw [own] at stands looksUp ⊢
      obtain ⟨offset, constant⟩ := Zone.exists_constantOffset looksUp stands
      have opened : (date.wall.micros : Int) - date.offset = date.instant := rfl
      rw [Zone.clock, Zone.offsetAt_of_constant constant]
      rw [Zone.offset_of_localizeWith constant read] at opened
      omega
  · exact Zone.clock_of_at shows

theorem Zone.whole_of_localizeWith {zone : Zone} {time : WallTime} {choice : Bool} {read : Moment}
    (reader : zone.hasReader = true) (localized : zone.localizeWith time choice = some read) :
    read.offset % 1000000 = 0 := by
  cases zone with
  | fixed => contradiction
  | steady name offset =>
      cases localized
      exact Int.mul_emod_left offset 1000000
  | varying history manner =>
      simp only [localizeWith, Option.map_eq_some_iff] at localized
      obtain ⟨phase, _, rfl⟩ := localized
      exact Int.mul_emod_left phase.offset 1000000

namespace RuleText

theorem instant_utc (moment : Moment) (offset : moment.offset = 0) :
    (Moment.mk moment.wall 0 .utc).instant = moment.instant := by
  rw [Moment.instant, Moment.instant, offset]

/-- The digits of a time are those of its whole seconds. -/
theorem dateTimeChars_truncate (time : WallTime) :
    dateTimeChars time.truncate = dateTimeChars time := by
  have day : time.truncate.day = time.day := by
    simp only [WallTime.day, WallTime.truncate, WallTime.microsecond, microsPerSecond, microsPerDay]
    omega
  have seconds : time.truncate.seconds = time.seconds := by
    simp only [WallTime.seconds, WallTime.truncate, WallTime.microsecond, microsPerSecond]
    omega
  simp only [dateTimeChars, dateChars, WallTime.date, WallTime.hour, WallTime.minute,
    WallTime.second, WallTime.secondOfDay, day, seconds]

variable [Zone.Directory] {calendar : Calendar} {date : Moment}

/-- A zone that is shown once where a zone without a reader is named after it gives this zone its offset. -/
theorem offset_of_agreesWithKey {key : String} {zone : Zone} (agrees : zone.AgreesWithKey)
    (plain : zone.isPlain = true) (isKey : zone.name? = some key) {shown read : Moment}
    (shownStands : ∃ choice, zone.localizeWith shown.wall choice = some shown)
    (readStands : zone.localize shown.wall = some read)
    (once : zone.showsOnce shown.wall = some true) : read.offset = shown.offset := by
  have readless : zone.hasReader = false := by
    refine Bool.eq_false_iff.mpr fun reader => ?_
    rw [Zone.isPlain_of_hasReader reader] at plain
    contradiction
  obtain ⟨choice, shownRead⟩ := shownStands
  have shownZone := Zone.zone_of_localizeWith shownRead
  have readZone := Zone.zone_of_localizeWith readStands
  have readWall := Zone.wall_of_localize readStands
  obtain ⟨named, resolved, reader, namedOnce⟩ := Zone.showsOnce_of_not_hasReader readless isKey once
  obtain ⟨namedRead, localized, _⟩ :=
    Zone.exists_localize_of_showsOnce (Zone.isPlain_of_hasReader reader) namedOnce
  have ofShown := agrees plain shown shownZone ⟨choice, shownRead⟩
  have ofRead := agrees plain read readZone ⟨false, by rw [readWall]; exact readStands⟩
  rw [ofShown (by rw [shownZone, readless]) key named namedRead (by rw [shownZone, isKey]) resolved
      namedOnce localized,
    ofRead (by rw [readZone, readless]) key named namedRead (by rw [readZone, isKey]) resolved
      (by rw [readWall]; exact namedOnce) (by rw [readWall]; exact localized)]

/-- A date at the calendar's own offset is read back with this offset, unless the calendar's zone is neither
asked about times nor named. -/
theorem localize_of_isLocal (genuine : date.Genuine) (agrees : calendar.zone.AgreesWithKey)
    (own : isLocal calendar date = some true) :
    ∃ read, calendar.zone.localize date.wall = some read ∧
      (read.offset = date.offset ∨ calendar.zone.isPlain = true ∧ calendar.zone.name? = none) := by
  simp only [isLocal, Option.bind_eq_bind, Option.bind_eq_some_iff] at own
  obtain ⟨shown, shows, once⟩ := own
  split at once
  · next sameOffset =>
      have sameWall : shown.wall = date.wall :=
        Moment.wall_eq_of_instant (Calendar.instant_of_shown shows) sameOffset.symm
      rw [sameOffset, ← sameWall]
      cases isPlain : calendar.zone.isPlain with
      | false =>
          have clock := Calendar.clock_of_shown isPlain genuine.read shows
          obtain ⟨read, localized, atClock⟩ := Zone.exists_localize_of_showsOnce isPlain once
          exact ⟨read, localized, .inl ((atClock shown.instant clock).trans (Zone.offset_of_clock clock))⟩
      | true =>
          have shownStands := Calendar.exists_read_of_shown isPlain genuine.read shows
          obtain ⟨read, localized⟩ := Zone.exists_localize_of_isPlain isPlain shown.wall
          refine ⟨read, localized, ?_⟩
          cases isKey : calendar.zone.name? with
          | none => exact .inr ⟨rfl, rfl⟩
          | some key =>
              exact .inl (offset_of_agreesWithKey agrees isPlain isKey shownStands localized once)
  · contradiction

theorem zoneName?_eq_some {name : String} (named : zoneName? date = some (some name)) :
    date.zone.name? = some name ∧ date.zone.showsOnce date.wall = some true := by
  simp only [zoneName?] at named
  split at named
  · simp at named
  · next known isName =>
      split at named
      · simp at named
      · simp only [Option.map_eq_some_iff] at named
        obtain ⟨once, shows, chosen⟩ := named
        cases once with
        | false => contradiction
        | true =>
            cases chosen
            exact ⟨isName, shows⟩

/-- A date that is written with its zone is read back with its offset, which is one of whole seconds. -/
theorem localize_of_zoneName? {name : String} (genuine : date.Genuine)
    (named : zoneName? date = some (some name)) :
    ∃ zone read, Zone.resolve? name = some zone ∧ zone.localize date.wall = some read ∧
      read.offset = date.offset ∧ date.offset % 1000000 = 0 := by
  obtain ⟨isName, once⟩ := zoneName?_eq_some named
  cases reader : date.zone.hasReader with
  | true =>
      have listed : date.zone.Listed := genuine.known.resolve_right (by rw [reader]; nofun)
      obtain ⟨choice, read⟩ := genuine.read
      have whole := Zone.whole_of_localizeWith reader read
      rw [Zone.localizeWith_of_showsOnce reader once] at read
      exact ⟨date.zone, date, listed.resolve? isName, read, rfl, whole⟩
  | false =>
      obtain ⟨zone, resolved, zoneReader, zoneOnce⟩ :=
        Zone.showsOnce_of_not_hasReader reader isName once
      obtain ⟨read, localized, _⟩ :=
        Zone.exists_localize_of_showsOnce (Zone.isPlain_of_hasReader zoneReader) zoneOnce
      have same := genuine.keyed reader name zone read isName resolved zoneOnce localized
      refine ⟨zone, read, resolved, localized, same.symm, ?_⟩
      rw [same]
      exact Zone.whole_of_localizeWith zoneReader localized

theorem dateForm_cases {form : DateForm} (formed : dateForm calendar date = some form) :
    (form = .day date.wall ∧ isLocal calendar date = some true ∧ date.wall.secondOfDay = 0) ∨
      (form = .utc date.wall ∧ date.offset = 0) ∨
      (∃ name, form = .zoned name date.wall ∧ zoneName? date = some (some name)) ∨
      (form = .plain date.wall ∧ isLocal calendar date = some true) ∨
      ∃ shown, form = .utc shown.wall ∧ Zone.utc.at date.instant = some shown ∧
        isLocal calendar date = some false := by
  simp only [dateForm, Option.pure_def, Option.bind_eq_bind, Option.bind_eq_some_iff] at formed
  obtain ⟨own, isOwn, formed⟩ := formed
  split at formed
  · next midnight =>
      simp only [Bool.and_eq_true, beq_iff_eq] at midnight
      obtain ⟨rfl, midnight⟩ := midnight
      exact .inl ⟨(Option.some.inj formed).symm, isOwn, midnight⟩
  · split at formed
    · next unmoved =>
        exact .inr (.inl ⟨(Option.some.inj formed).symm, beq_iff_eq.1 unmoved⟩)
    · simp only [Option.bind_eq_some_iff] at formed
      obtain ⟨named, isNamed, formed⟩ := formed
      cases named with
      | some name => exact .inr (.inr (.inl ⟨name, (Option.some.inj formed).symm, isNamed⟩))
      | none =>
          simp only at formed
          split at formed
          · next isTrue =>
              rw [isTrue] at isOwn
              exact .inr (.inr (.inr (.inl ⟨(Option.some.inj formed).symm, isOwn⟩)))
          · next notOwn =>
              rw [Bool.eq_false_iff.mpr notOwn] at isOwn
              simp only [Option.bind_eq_some_iff] at formed
              obtain ⟨shown, shows, formed⟩ := formed
              exact .inr (.inr (.inr (.inr ⟨shown, (Option.some.inj formed).symm, shows, isOwn⟩)))

/-- The two ways in which writing a date moves it: a part of a second that UTC shows is not written, and a time
that stands alone is read with another offset in a zone that is neither asked about it nor named. -/
inductive Moves (calendar : Calendar) (date : Moment) : Prop
  | part (elsewhere : isLocal calendar date = some false) (fraction : date.offset % 1000000 ≠ 0)
  | standing {read : Moment} (plain : calendar.zone.isPlain = true)
      (unnamed : calendar.zone.name? = none)
      (bare : dateForm calendar date = some (.day date.wall) ∨
        dateForm calendar date = some (.plain date.wall))
      (localized : calendar.zone.localize date.wall = some read) (differs : read.offset ≠ date.offset)

theorem not_moves_of_form {form : DateForm} (formed : dateForm calendar date = some form)
    (apart : form ≠ .day date.wall ∧ form ≠ .plain date.wall) (whole : date.offset % 1000000 = 0) :
    ¬Moves calendar date := by
  intro moves
  cases moves with
  | part _ fraction => exact fraction whole
  | standing _ _ bare _ _ =>
      rcases bare with day | plain
      · exact apart.1 (Option.some.inj (formed.symm.trans day))
      · exact apart.2 (Option.some.inj (formed.symm.trans plain))

/-- Of a date that is written without its offset, the instant is kept exactly as its offset is. -/
theorem instant_eq_iff_not_moves {form : DateForm} {read : Moment}
    (formed : dateForm calendar date = some form)
    (bare : form = .day date.wall ∨ form = .plain date.wall) (own : isLocal calendar date = some true)
    (localized : calendar.zone.localize date.wall = some read)
    (kept : read.offset = date.offset ∨ calendar.zone.isPlain = true ∧ calendar.zone.name? = none) :
    read.instant = date.instant ↔ ¬Moves calendar date := by
  rw [Moment.instant_eq_iff (Zone.wall_of_localize localized)]
  constructor
  · intro same moves
    cases moves with
    | part elsewhere _ =>
        rw [own] at elsewhere
        contradiction
    | standing _ _ _ again differs =>
        rw [localized, Option.some.injEq] at again
        subst again
        exact differs same
  · intro stays
    refine kept.elim id fun unnamed => Decidable.byContradiction fun differs => stays ?_
    refine .standing unnamed.1 unnamed.2 ?_ localized differs
    rcases bare with rfl | rfl
    · exact .inl formed
    · exact .inr formed

/-- Whatever form a date is written in, it is read back in whole seconds, and as the same instant unless
writing it moves it. -/
theorem read_dateForm {form : DateForm} (genuine : date.Genuine)
    (agrees : calendar.zone.AgreesWithKey) (whole : date.wall.microsecond = 0)
    (formed : dateForm calendar date = some form) :
    ∃ read, Until.read calendar form.chars = .ok (some read) ∧ read.wall.microsecond = 0 ∧
      (read.instant = date.instant ↔ ¬Moves calendar date) := by
  have bare {read : Moment} (localized : calendar.zone.localize date.wall = some read) :
      read.wall.microsecond = 0 := by rw [Zone.wall_of_localize localized, whole]
  rcases dateForm_cases formed with ⟨rfl, own, midnight⟩ | ⟨rfl, unmoved⟩ | ⟨name, rfl, named⟩ |
    ⟨rfl, own⟩ | ⟨shown, rfl, shows, elsewhere⟩
  · obtain ⟨read, localized, kept⟩ := localize_of_isLocal genuine agrees own
    exact ⟨read, by rw [Until.read_day whole midnight, localized], bare localized,
      instant_eq_iff_not_moves formed (.inl rfl) own localized kept⟩
  · refine ⟨_, Until.read_utc whole, whole, iff_of_true (instant_utc date unmoved) ?_⟩
    exact not_moves_of_form formed (by simp) (by rw [unmoved]; rfl)
  · obtain ⟨zone, read, resolved, localized, offset, inSeconds⟩ := localize_of_zoneName? genuine named
    have wall := Zone.wall_of_localize localized
    refine ⟨read, by rw [Until.read_zoned whole resolved, localized], by rw [wall, whole], ?_⟩
    exact iff_of_true ((Moment.instant_eq_iff wall).mpr offset)
      (not_moves_of_form formed (by simp) inSeconds)
  · obtain ⟨read, localized, kept⟩ := localize_of_isLocal genuine agrees own
    exact ⟨read, by rw [Until.read_plain whole, localized], bare localized,
      instant_eq_iff_not_moves formed (.inr rfl) own localized kept⟩
  · have chars : (DateForm.utc shown.wall).chars = (DateForm.utc shown.wall.truncate).chars := by
      rw [DateForm.chars, DateForm.chars, dateTimeChars_truncate]
    have same : (Moment.mk shown.wall.truncate 0 .utc).instant = date.instant ↔
        date.offset % 1000000 = 0 := by
      have wall := (Zone.eq_of_at shows).2.2
      have shownMicros : (shown.wall.micros : Int) = date.wall.micros - date.offset + 0 := wall
      have truncated := shown.wall.micros_truncate
      have opened : (Moment.mk shown.wall.truncate 0 .utc).instant = date.instant ↔
          (shown.wall.truncate.micros : Int) - 0 = date.wall.micros - date.offset := Iff.rfl
      rw [opened]
      simp only [WallTime.microsecond, microsPerSecond, Instant.whole] at whole truncated
      omega
    rw [chars]
    refine ⟨_, Until.read_utc shown.wall.microsecond_truncate, shown.wall.microsecond_truncate,
      same.trans ⟨not_moves_of_form formed (by simp), fun stays => ?_⟩⟩
    exact Decidable.byContradiction fun fraction => stays (.part elsewhere fraction)

end RuleText

end Recurrence
