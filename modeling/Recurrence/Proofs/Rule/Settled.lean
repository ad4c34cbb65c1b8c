import Recurrence.Proofs.Rule.ReadDate
import Recurrence.Proofs.Rule.Written

namespace Recurrence.RuleText

/-! Writing again what has been read.

A rule that is read from what its calendar has written is written in the same way again, but for one
kind of last date (`RuleText.write_again_iff`).  A date whose own zone does not show its time once is
written without this zone, and the date that is then read may have a form that the first one did not
have (`RuleText.Drifts`).
-/

section

variable {calendar : Calendar} {date again shown : Moment}

/-- A calendar that shows a date shows it in its own zone as well. -/
theorem exists_shown_of_own (shows : calendar.localize (.aware date) = some shown)
    (own : again.zone = calendar.zone) (instant : again.instant = date.instant) :
    ∃ other, calendar.localize (.aware again) = some other := by
  cases consults : calendar.zone.consults with
  | false =>
      refine ⟨again, if_pos ?_⟩
      rw [Zone.keeps, own, consults]
      exact decide_eq_true rfl
  | true =>
      have moves (moment : Moment) :
          calendar.localize (.aware moment) = calendar.zone.at moment.instant := by
        refine if_neg ?_
        rw [Zone.keeps, consults]
        exact Bool.false_ne_true
      rw [moves] at shows
      exact ⟨shown, by rw [moves, instant, shows]⟩

theorem covers_of_shown (looksUp : calendar.zone.isPlain = false)
    (read : ∃ choice, date.zone.localizeWith date.wall choice = some date)
    (shows : calendar.localize (.aware date) = some shown)
    (inside : 0 ≤ date.instant ∧ date.instant < calendarMicros) : calendar.zone.Covers date.instant := by
  have clocks := Calendar.clock_of_shown looksUp read shows
  rw [Calendar.instant_of_shown shows] at clocks
  have bound := shown.wall.micros_lt
  refine ⟨inside, ?_⟩
  rw [clocks]
  omega

theorem exists_shown_of_covers (covers : calendar.zone.Covers date.instant) :
    ∃ shown, calendar.localize (.aware date) = some shown := by
  cases shows : calendar.localize (.aware date) with
  | none => exact absurd covers (Calendar.localize_aware_eq_none.mp shows).2
  | some shown => exact ⟨shown, rfl⟩

/-- A calendar that looks times up shows a date's own time exactly if its clocks have the date's offset. -/
theorem face_eq_iff (looksUp : calendar.zone.isPlain = false)
    (read : ∃ choice, date.zone.localizeWith date.wall choice = some date) :
    calendar.zone.face date = date.wall.micros ↔ calendar.zone.offsetAt date.instant = date.offset := by
  have opened : (date.wall.micros : Int) - date.offset = date.instant := rfl
  unfold Zone.face
  split
  · next kept =>
      obtain ⟨stands, own⟩ := Zone.stands_of_keeps kept
      rw [own] at stands looksUp ⊢
      obtain ⟨offset, constant⟩ := Zone.exists_constantOffset looksUp stands
      obtain ⟨choice, read⟩ := read
      refine iff_of_true rfl ?_
      rw [Zone.offsetAt_of_constant constant, Zone.offset_of_localizeWith constant read]
  · rw [Zone.clock]
    omega

end

theorem chars_zoned_ne_plain (name : String) (time : WallTime) :
    (DateForm.zoned name time).chars ≠ (DateForm.plain time).chars := by
  intro same
  have colon : ':' ∈ (DateForm.zoned name time).chars :=
    List.mem_append_right _ List.mem_cons_self
  rw [same] at colon
  exact (simple_dateTimeChars time).not_mem rfl colon

theorem chars_day_ne_utc (time : WallTime) :
    (DateForm.day time).chars ≠ (DateForm.utc time).chars := by
  intro same
  have length : (dateTimeChars time ++ ['Z']).length = 8 :=
    (congrArg List.length same.symm).trans (length_dateChars time)
  rw [List.length_append, length_dateTimeChars] at length
  contradiction

/-- What stands for the last date of a rule can be told from its text. -/
theorem textWith_injective (rule : Rule) : (textWith rule).Injective := by
  have tail (rest : List (List Char)) :
      ∃ tail, ∀ piece, join ';' (piece :: rest) = piece ++ tail := by
    cases rest with
    | nil => exact ⟨[], fun piece => (List.append_nil piece).symm⟩
    | cons next more => exact ⟨_, fun piece => rfl⟩
  intro first second same
  obtain ⟨tail, isTail⟩ :=
    tail ((intervalEntries rule ++ partEntries rule rule.restrictions).map written)
  have pieces (chars : List Char) : (textWith rule chars).toList =
      assigned "FREQ" rule.frequency.name.toList ++ ';' :: (written (.lastDate, chars) ++ tail) := by
    rw [textWith, String.toList_ofList, ← isTail]
    rfl
  have chars := congrArg String.toList same
  rw [pieces, pieces, List.append_cancel_left_eq, List.cons.injEq, List.append_cancel_right_eq] at chars
  exact (List.cons.inj (List.append_cancel_left chars.2)).2

theorem microsecond_utc {date utc : Moment} (whole : date.wall.microsecond = 0)
    (inSeconds : date.offset % 1000000 = 0) (shows : Zone.utc.at date.instant = some utc) :
    utc.wall.microsecond = 0 := by
  have wall := (Zone.eq_of_at shows).2.2
  have micros : (utc.wall.micros : Int) = date.wall.micros - date.offset + 0 := wall
  simp only [WallTime.microsecond, microsPerSecond] at whole ⊢
  omega

variable [Zone.Directory] {calendar : Calendar} {date again : Moment}

/-- How a last date gets another form when it is read and written again.  Its own zone does not show
its time once, so that it is not written with the name of this zone. -/
inductive Drifts (calendar : Calendar) (date : Moment) : Prop
  /-- The time stands alone, as the calendar shows it once; then it has the name of the calendar's
  zone. -/
  | named (nameless : date.zone.showsOnce date.wall = some false) (ahead : date.offset ≠ 0)
      (offset : calendar.zone.offsetAt date.instant = date.offset)
      (once : calendar.zone.showsOnce date.wall = some true)
      (timed : date.wall.secondOfDay ≠ 0) (name : String)
      (isName : calendar.zone.name? = some name)
  /-- The date is converted to UTC; then it is a midnight there and in the calendar. -/
  | shortened (nameless : date.zone.showsOnce date.wall = some false) (ahead : date.offset ≠ 0)
      (offset : calendar.zone.offsetAt date.instant = 0) (utc : Moment)
      (shows : Zone.utc.at date.instant = some utc)
      (once : calendar.zone.showsOnce utc.wall = some true)
      (midnight : utc.wall.secondOfDay = 0)

namespace Drifts

theorem nameless (drifts : Drifts calendar date) : date.zone.showsOnce date.wall = some false := by
  cases drifts with
  | named nameless | shortened nameless => exact nameless

theorem ahead (drifts : Drifts calendar date) : date.offset ≠ 0 := by
  cases drifts with
  | named _ ahead | shortened _ ahead => exact ahead

end Drifts

/-- What is written in a form is read as a date that is written in the next form. -/
def Rewrites (calendar : Calendar) (form next : DateForm) : Prop :=
  ∃ again : Moment, Until.read calendar form.chars = .ok (some again) ∧
    again.wall.microsecond = 0 ∧ dateForm calendar again = some next

/-- What is written in a form is read and written in the same way unless the date drifts. -/
def Settles (calendar : Calendar) (date : Moment) (form : DateForm) : Prop :=
  ∃ next, Rewrites calendar form next ∧ (next.chars = form.chars ↔ ¬Drifts calendar date)

section Shown

variable {shown : Moment}

theorem exists_shown_of_isLocal {own : Bool} (isOwn : isLocal calendar date = some own) :
    ∃ shown, calendar.localize (.aware date) = some shown := by
  cases shows : calendar.localize (.aware date) with
  | none =>
      rw [isLocal, shows] at isOwn
      contradiction
  | some shown => exact ⟨shown, rfl⟩

/-- Whether a date is local to a calendar that looks times up depends on its instant and its offset alone. -/
theorem isLocal_congr {other : Moment} (looksUp : calendar.zone.isPlain = false)
    (read : ∃ choice, date.zone.localizeWith date.wall choice = some date)
    (againRead : ∃ choice, again.zone.localizeWith again.wall choice = some again)
    (instant : again.instant = date.instant) (offset : again.offset = date.offset)
    (shows : calendar.localize (.aware date) = some shown)
    (againShows : calendar.localize (.aware again) = some other) :
    isLocal calendar again = isLocal calendar date := by
  have wall := Moment.wall_eq_of_instant instant offset
  have same : calendar.zone.face again = again.wall.micros ↔ calendar.zone.face date = date.wall.micros := by
    rw [face_eq_iff looksUp againRead, face_eq_iff looksUp read, instant, offset]
  rw [isLocal_eq shows, isLocal_eq againShows]
  simp only [same]
  rw [wall]

theorem own_iff_offset {own : Bool} (looksUp : calendar.zone.isPlain = false)
    (read : ∃ choice, date.zone.localizeWith date.wall choice = some date)
    (isOwn : isLocal calendar date = some own) :
    own = true ↔ calendar.zone.offsetAt date.instant = date.offset ∧
      calendar.zone.showsOnce date.wall = some true := by
  rw [own_iff isOwn, face_eq_iff looksUp read]

end Shown

section Forms

theorem dateForm_day (own : isLocal calendar date = some true) (midnight : date.wall.secondOfDay = 0) :
    dateForm calendar date = some (.day date.wall) := by
  rw [dateForm, own]
  simp only [Option.bind_eq_bind, Option.bind_some, midnight]
  rfl

/-- A time that is local to a calendar is read as a date of its zone that is as local. -/
theorem exists_localize_of_own (genuine : date.Genuine) (known : calendar.zone.Known)
    (own : isLocal calendar date = some true) :
    ∃ again, calendar.zone.localize date.wall = some again ∧ again.wall = date.wall ∧
      again.zone = calendar.zone ∧ again.offset = date.offset ∧
      isLocal calendar again = some true := by
  have looksUp := known.isPlain
  obtain ⟨again, localized, kept⟩ := localize_of_isLocal genuine known.agreesWithKey own
  obtain ⟨shown, shows⟩ := exists_shown_of_isLocal own
  have wall := Zone.wall_of_localize localized
  have zone := Zone.zone_of_localizeWith localized
  have offset : again.offset = date.offset := by
    refine kept.resolve_right fun unnamed => ?_
    rw [looksUp] at unnamed
    exact Bool.false_ne_true unnamed.1
  have instant : again.instant = date.instant := (Moment.instant_eq_iff wall).mpr offset
  obtain ⟨other, againShows⟩ := exists_shown_of_own shows zone instant
  have isLocal := isLocal_congr looksUp genuine.read (Zone.exists_read_of_localizeWith localized) instant
    offset shows againShows
  exact ⟨again, localized, wall, zone, offset, isLocal.trans own⟩

theorem rewrites_day (genuine : date.Genuine) (known : calendar.zone.Known)
    (whole : date.wall.microsecond = 0) (own : isLocal calendar date = some true)
    (midnight : date.wall.secondOfDay = 0) : Rewrites calendar (.day date.wall) (.day date.wall) := by
  obtain ⟨again, localized, wall, _, _, againOwn⟩ := exists_localize_of_own genuine known own
  refine ⟨again, ?_, by rw [wall, whole], ?_⟩
  · rw [Until.read_day whole midnight, localized]
  · rw [← wall] at midnight ⊢
    exact dateForm_day againOwn midnight

theorem rewrites_utc {time : WallTime} {own : Bool} (whole : time.microsecond = 0)
    (isOwn : isLocal calendar ⟨time, 0, .utc⟩ = some own) :
    Rewrites calendar (.utc time) (if own && time.secondOfDay == 0 then .day time else .utc time) :=
  ⟨⟨time, 0, .utc⟩, Until.read_utc whole, whole, dateForm_of_utc isOwn rfl⟩

/-- A time of a date without an offset is as local in UTC as it is in the date's zone. -/
theorem isLocal_utc {own : Bool} (looksUp : calendar.zone.isPlain = false)
    (read : ∃ choice, date.zone.localizeWith date.wall choice = some date)
    (isOwn : isLocal calendar date = some own)
    (unmoved : date.offset = 0) : isLocal calendar ⟨date.wall, 0, .utc⟩ = some own := by
  have instant := instant_utc date unmoved
  have inside : 0 ≤ date.instant ∧ date.instant < calendarMicros := by
    have bound := date.wall.micros_lt
    change 0 ≤ (date.wall.micros : Int) - date.offset ∧
      (date.wall.micros : Int) - date.offset < calendarMicros
    omega
  obtain ⟨shown, shows⟩ := exists_shown_of_isLocal isOwn
  have covers := covers_of_shown looksUp read shows inside
  rw [← instant] at covers
  obtain ⟨other, utcShows⟩ := exists_shown_of_covers covers
  exact (isLocal_congr looksUp read ⟨false, rfl⟩ instant unmoved.symm shows utcShows).trans isOwn

theorem rewrites_zoned {name : String} (known : calendar.zone.Known) (readIn : date.ReadIn calendar)
    (named : zoneName? date = some (some name))
    (formed : dateForm calendar date = some (.zoned name date.wall)) :
    Rewrites calendar (.zoned name date.wall) (.zoned name date.wall) := by
  have resolved := (readIn.known known).resolve? (zoneName?_eq_some named).1
  refine ⟨date, ?_, readIn.whole, formed⟩
  rw [Until.read_zoned readIn.whole resolved, readIn.read]

/-- A time that stands alone is written with the name of the calendar's zone, if this has one. -/
theorem rewrites_plain (known : calendar.zone.Known) (genuine : date.Genuine)
    (whole : date.wall.microsecond = 0) (own : isLocal calendar date = some true)
    (timed : date.wall.secondOfDay ≠ 0) (ahead : date.offset ≠ 0) :
    Rewrites calendar (.plain date.wall)
      (match calendar.zone.name? with
        | none => .plain date.wall
        | some name => .zoned name date.wall) := by
  obtain ⟨again, localized, wall, zone, offset, againOwn⟩ := exists_localize_of_own genuine known own
  refine ⟨again, ?_, by rw [wall, whole], ?_⟩
  · rw [Until.read_plain whole, localized]
  · rw [dateForm_of_ahead againOwn (fun _ => by rw [wall]; exact timed) (by rw [offset]; exact ahead)]
    cases isName : calendar.zone.name? with
    | none =>
        rw [zoneName?, zone, isName]
        simp only [Option.bind_some, if_true, wall]
    | some name =>
        have filled := resolve?_ne_nil (known.resolve? isName)
        have once := ((own_iff own).mp rfl).2
        rw [zoneName?, zone, isName, wall]
        simp only [filled, Bool.false_eq_true, if_false, once, Option.map_some, if_true, Option.bind_some]

end Forms

section Settled

/-- A date is written without a name if its zone has none, which is then the calendar's, or does not
show the time once. -/
theorem not_once_or_own (known : calendar.zone.Known) (readIn : date.ReadIn calendar)
    (nameless : zoneName? date = some none) :
    date.zone.showsOnce date.wall = some false ∨
      date.zone = calendar.zone ∧ ∃ offset mark, calendar.zone = .fixed offset none mark := by
  cases isName : date.zone.name? with
  | none =>
      right
      rcases readIn.place with listed | own
      · obtain ⟨name, named, _⟩ := listed.exists_name
        rw [isName] at named
        contradiction
      · refine ⟨own, known.resolve_left fun listed => ?_⟩
        obtain ⟨name, named, _⟩ := listed.exists_name
        rw [← own, isName] at named
        contradiction
  | some name =>
      left
      have filled := resolve?_ne_nil ((readIn.known known).resolve? isName)
      rw [zoneName?, isName] at nameless
      simp only [filled, Bool.false_eq_true, if_false, Option.map_eq_some_iff] at nameless
      obtain ⟨once, shows, chosen⟩ := nameless
      cases once with
      | false => exact shows
      | true => contradiction

/-- A date of a calendar whose zone is an offset without a name is local. -/
theorem own_of_fixed {own : Bool} (isOwn : isLocal calendar date = some own)
    (sameZone : date.zone = calendar.zone)
    (isFixed : ∃ offset mark, calendar.zone = .fixed offset none mark) :
    own = true := by
  obtain ⟨offset, mark, isFixed⟩ := isFixed
  have keeps : calendar.zone.keeps date.zone = true := by
    rw [sameZone, isFixed]
    exact decide_eq_true rfl
  refine (own_iff isOwn).mpr ⟨if_pos keeps, ?_⟩
  rw [isFixed]
  rfl

/-- The clocks of a known zone tell how often they show what they show. -/
theorem tells_of_clock {zone : Zone} {instant : Int} {time : WallTime} (known : zone.Known)
    (inside : 0 ≤ instant ∧ instant < calendarMicros) (clock : zone.clock instant = time.micros) :
    zone.Tells time := by
  intro history judges
  rcases known with listed | ⟨offset, mark, rfl⟩
  · have reader := listed.hasReader
    cases zone with
    | steady | fixed => contradiction
    | varying own manner =>
        cases manner with
        | plain key mark => contradiction
        | reader =>
            cases judges
            exact Zone.History.inCalendar_of_clock inside clock
  · contradiction

theorem settles_of_rewrites {form : DateForm} (rewrites : Rewrites calendar form form)
    (stays : ¬Drifts calendar date) : Settles calendar date form :=
  ⟨form, rewrites, iff_of_true rfl stays⟩

theorem settles_day (known : calendar.zone.Known) (readIn : date.ReadIn calendar)
    (own : isLocal calendar date = some true)
    (midnight : date.wall.secondOfDay = 0) : Settles calendar date (.day date.wall) := by
  have genuine := readIn.genuine known
  refine settles_of_rewrites (rewrites_day genuine known readIn.whole own midnight) fun drifts => ?_
  have offset := ((own_iff_offset known.isPlain genuine.read own).mp rfl).1
  cases drifts with
  | named _ _ _ _ timed => exact timed midnight
  | shortened _ ahead unmoved => exact ahead (offset.symm.trans unmoved)

theorem settles_utc {own : Bool} (known : calendar.zone.Known) (readIn : date.ReadIn calendar)
    (isOwn : isLocal calendar date = some own) (notDay : own = true → date.wall.secondOfDay ≠ 0)
    (unmoved : date.offset = 0) : Settles calendar date (.utc date.wall) := by
  have rewrites := rewrites_utc readIn.whole (isLocal_utc known.isPlain ⟨false, readIn.read⟩ isOwn unmoved)
  rw [if_neg (not_day notDay)] at rewrites
  exact settles_of_rewrites rewrites fun drifts => drifts.ahead unmoved

theorem settles_zoned {name : String} (known : calendar.zone.Known) (readIn : date.ReadIn calendar)
    (named : zoneName? date = some (some name))
    (formed : dateForm calendar date = some (.zoned name date.wall)) :
    Settles calendar date (.zoned name date.wall) := by
  refine settles_of_rewrites (rewrites_zoned known readIn named formed) fun drifts => ?_
  have once := (zoneName?_eq_some named).2
  rw [drifts.nameless] at once
  contradiction

/-- A time that stands alone gets a name exactly if the calendar's zone has one. -/
theorem settles_plain (known : calendar.zone.Known) (readIn : date.ReadIn calendar)
    (own : isLocal calendar date = some true) (timed : date.wall.secondOfDay ≠ 0)
    (ahead : date.offset ≠ 0) (nameless : zoneName? date = some none) :
    Settles calendar date (.plain date.wall) := by
  refine ⟨_, rewrites_plain known (readIn.genuine known) readIn.whole own timed ahead, ?_⟩
  obtain ⟨offset, once⟩ := (own_iff_offset known.isPlain ⟨false, readIn.read⟩ own).mp rfl
  cases isName : calendar.zone.name? with
  | none =>
      refine iff_of_true rfl fun drifts => ?_
      cases drifts with
      | named _ _ _ _ _ name named =>
          rw [isName] at named
          contradiction
      | shortened _ _ unmoved => exact ahead (offset.symm.trans unmoved)
  | some name =>
      refine iff_of_false (chars_zoned_ne_plain name date.wall) (not_not_intro ?_)
      rcases not_once_or_own known readIn nameless with notOnce | ⟨_, _, _, isFixed⟩
      · exact .named notOnce ahead offset once timed name isName
      · rw [isFixed] at isName
        contradiction

/-- Of the UTC time of a date that a known calendar shows it can be told whether it is local. -/
theorem exists_isLocal_utc {utc : Moment} {own : Bool} (known : calendar.zone.Known)
    (read : ∃ choice, date.zone.localizeWith date.wall choice = some date)
    (isOwn : isLocal calendar date = some own)
    (shows : Zone.utc.at date.instant = some utc) : ∃ utcOwn, isLocal calendar utc = some utcOwn := by
  have inside := (Zone.at_isSome.mp (Option.isSome_iff_exists.mpr ⟨utc, shows⟩)).1
  obtain ⟨shown, dateShown⟩ := exists_shown_of_isLocal isOwn
  have covers := covers_of_shown known.isPlain read dateShown inside
  obtain ⟨_, unmoved, wall⟩ := Zone.eq_of_at shows
  have utcRead : ∃ choice, utc.zone.localizeWith utc.wall choice = some utc := by
    rw [Zone.eq_utc_of_at shows]
    exact ⟨false, rfl⟩
  cases unknown : isLocal calendar utc with
  | some utcOwn => exact ⟨utcOwn, rfl⟩
  | none =>
      rw [isLocal_eq_none_iff, face_eq_iff known.isPlain utcRead, Zone.instant_of_at shows] at unknown
      rcases unknown with ⟨_, hidden⟩ | ⟨offset, untold⟩
      · exact absurd covers hidden
      · refine absurd (tells_of_clock known inside ?_) untold
        rw [wall, Zone.clock, Zone.clock, offset, unmoved]

/-- A date that its calendar does not take for its own has an offset of whole seconds. -/
theorem whole_of_not_own (known : calendar.zone.Known) (readIn : date.ReadIn calendar)
    (notOwn : isLocal calendar date = some false) : date.offset % 1000000 = 0 := by
  have ofListed (listed : date.zone.Listed) : date.offset % 1000000 = 0 :=
    Zone.whole_of_localizeWith listed.hasReader readIn.read
  rcases readIn.place with listed | own
  · exact ofListed listed
  · rcases known with listed | isFixed
    · exact ofListed (by rw [own]; exact listed)
    · exact absurd (own_of_fixed notOwn own isFixed) Bool.false_ne_true

/-- A time that is converted to UTC gets shorter exactly if it is a midnight of the calendar there. -/
theorem settles_converted {utc : Moment} (known : calendar.zone.Known) (readIn : date.ReadIn calendar)
    (notOwn : isLocal calendar date = some false) (ahead : date.offset ≠ 0)
    (nameless : zoneName? date = some none) (shows : Zone.utc.at date.instant = some utc) :
    Settles calendar date (.utc utc.wall) := by
  have read : ∃ choice, date.zone.localizeWith date.wall choice = some date := ⟨false, readIn.read⟩
  obtain ⟨own, isOwn⟩ := exists_isLocal_utc known read notOwn shows
  have utcRead : ∃ choice, utc.zone.localizeWith utc.wall choice = some utc := by
    rw [Zone.eq_utc_of_at shows]
    exact ⟨false, rfl⟩
  have inSeconds := whole_of_not_own known readIn notOwn
  have isLocal := own_iff_offset known.isPlain utcRead isOwn
  rw [Zone.instant_of_at shows, (Zone.eq_of_at shows).2.1] at isLocal
  rw [Zone.eq_utc_of_at shows] at isOwn
  refine ⟨_, rewrites_utc (microsecond_utc readIn.whole inSeconds shows) isOwn, ?_⟩
  by_cases isDay : (own && utc.wall.secondOfDay == 0) = true
  · rw [if_pos isDay]
    refine iff_of_false (chars_day_ne_utc utc.wall) (not_not_intro ?_)
    rw [Bool.and_eq_true, beq_iff_eq, isLocal] at isDay
    obtain ⟨⟨offset, once⟩, midnight⟩ := isDay
    rcases not_once_or_own known readIn nameless with notOnce | ⟨sameZone, isFixed⟩
    · exact .shortened notOnce ahead offset utc shows once midnight
    · exact absurd (own_of_fixed notOwn sameZone isFixed) Bool.false_ne_true
  · rw [if_neg isDay]
    refine iff_of_true rfl fun drifts => ?_
    cases drifts with
    | named _ _ offset once =>
        exact Bool.false_ne_true ((own_iff_offset known.isPlain read notOwn).mpr ⟨offset, once⟩)
    | shortened _ _ offset other otherShows once midnight =>
        obtain rfl := Option.some.inj (shows.symm.trans otherShows)
        refine isDay ?_
        rw [Bool.and_eq_true, beq_iff_eq, isLocal]
        exact ⟨⟨offset, once⟩, midnight⟩

/-- The form in which a date is written that was read settles. -/
theorem settles_of_dateForm {form : DateForm} (known : calendar.zone.Known)
    (readIn : date.ReadIn calendar) (formed : dateForm calendar date = some form) :
    Settles calendar date form := by
  obtain ⟨own, isOwn⟩ := exists_isLocal_of_dateForm formed
  by_cases isDay : own = true ∧ date.wall.secondOfDay = 0
  · obtain ⟨rfl, midnight⟩ := isDay
    obtain rfl := Option.some.inj ((dateForm_day isOwn midnight).symm.trans formed)
    exact settles_day known readIn isOwn midnight
  have notDay : own = true → date.wall.secondOfDay ≠ 0 := not_and.mp isDay
  by_cases unmoved : date.offset = 0
  · rw [dateForm_of_utc isOwn unmoved, if_neg (not_day notDay)] at formed
    obtain rfl := Option.some.inj formed
    exact settles_utc known readIn isOwn notDay unmoved
  have isFormed := formed
  rw [dateForm_of_ahead isOwn notDay unmoved, Option.bind_eq_some_iff] at formed
  obtain ⟨name?, isName, formed⟩ := formed
  cases name? with
  | some name =>
      obtain rfl := Option.some.inj formed
      exact settles_zoned known readIn isName isFormed
  | none =>
      cases own with
      | true =>
          obtain rfl := Option.some.inj formed
          exact settles_plain known readIn isOwn (notDay rfl) unmoved isName
      | false =>
          obtain ⟨utc, shows, rfl⟩ := Option.map_eq_some_iff.mp formed
          exact settles_converted known readIn isOwn unmoved isName shows

end Settled

variable {rule : Rule}

theorem readText_of_dateless {text : String} {limit : Int} (valid : rule.Valid) (known : calendar.zone.Known)
    (dateless : rule.ending.date? = none) (isWritten : write calendar rule = some text)
    (fits : (text.toList.length : Int) ≤ limit) : readText calendar limit text = .ok rule := by
  have genuine : ∀ date ∈ rule.ending.date?, date.Genuine := by
    rw [dateless]
    exact nofun
  have stays : ∀ date ∈ rule.ending.date?, ¬Moves calendar date := by
    rw [dateless]
    exact nofun
  obtain ⟨ending, reads, same⟩ := exists_read_of_write valid genuine known.agreesWithKey isWritten fits
  have kept : ending = rule.ending := Ending.eq_of_same dateless (same.mpr stays)
  rw [kept] at reads
  exact reads

/-- A rule that a calendar reads and writes is read from what is written, and it is written as the same
text again unless its last date drifts.  The calendar is in a zone that is found by its name or has an offset
without a name. -/
theorem write_again_iff {calendar : Calendar} {rule : Rule} {text formatted : String} {limit : Int}
    (known : calendar.zone.Known) (reads : readText calendar limit text = .ok rule)
    (isWritten : write calendar rule = some formatted)
    (fits : (formatted.toList.length : Int) ≤ limit) :
    ∃ again settled, readText calendar limit formatted = .ok again ∧
      write calendar again = some settled ∧
      (settled = formatted ↔ ∀ date ∈ rule.ending.date?, ¬Drifts calendar date) := by
  obtain ⟨valid, readIn⟩ := readIn_of_readText reads
  cases ends : rule.ending with
  | afterDate date =>
      have readIn := readIn date ends
      obtain ⟨_, isEnding⟩ := exists_endingEntries_of_write isWritten
      rw [ends] at isEnding
      obtain ⟨form, formed, _⟩ := Option.map_eq_some_iff.mp isEnding
      obtain rfl := Option.some.inj ((write_of_dateForm ends formed).symm.trans isWritten)
      obtain ⟨next, ⟨again, isAgain, whole, isNext⟩, settles⟩ :=
        settles_of_dateForm known readIn formed
      have plain := plain_dateForm (readIn.genuine known) formed
      refine ⟨_, textWith rule next.chars, readText_of_lastDate valid ends formed plain isAgain whole fits,
        write_of_dateForm rfl isNext, ?_⟩
      rw [(textWith_injective rule).eq_iff, settles]
      exact ⟨fun stays other member => by cases member; exact stays, fun stays => stays date rfl⟩
  | _ =>
      have dateless : rule.ending.date? = none := by
        rw [ends]
        rfl
      exact ⟨rule, formatted, readText_of_dateless valid known dateless isWritten fits, isWritten,
        iff_of_true rfl nofun⟩

/-- The second of the two times 01:30 in the night in which New York leaves daylight saving. -/
def laterHalfPastOne : Moment := { repeatedHour with offset := -18000000000 }

def mondaysUntil : Rule where
  frequency := .weekly
  ending := .afterDate laterHalfPastOne
  weekdays := [.every .monday]

def dailyUntil : Rule where
  frequency := .daily
  ending := .afterDate laterHalfPastOne

end Recurrence.RuleText

namespace Recurrence.RuleText

attribute [local instance] Zone.table

/-- In New York the repeated time is written in UTC, once and for all. -/
theorem write_again_mondaysUntil :
    newYorkCalendar.zone.Known ∧
      readText newYorkCalendar 80
        "FREQ=WEEKLY;BYDAY=MO;UNTIL=TZID=America/New_York:20241103T013000" = .ok mondaysUntil ∧
      write newYorkCalendar mondaysUntil = some "FREQ=WEEKLY;UNTIL=20241103T063000Z;BYDAY=MO" ∧
      ∃ again, readText newYorkCalendar 80 "FREQ=WEEKLY;UNTIL=20241103T063000Z;BYDAY=MO" = .ok again ∧
        write newYorkCalendar again = some "FREQ=WEEKLY;UNTIL=20241103T063000Z;BYDAY=MO" := by
  have known : newYorkCalendar.zone.Known := .inl listed_newYork
  have reads : readText newYorkCalendar 80
      "FREQ=WEEKLY;BYDAY=MO;UNTIL=TZID=America/New_York:20241103T013000" = .ok mondaysUntil := by
    simp only [readText, readPartial_eq]
    decide +kernel
  have isWritten : write newYorkCalendar mondaysUntil =
      some "FREQ=WEEKLY;UNTIL=20241103T063000Z;BYDAY=MO" := by
    decide +kernel
  have stays : ∀ date ∈ mondaysUntil.ending.date?, ¬Drifts newYorkCalendar date := by
    intro date member drifts
    cases member
    cases drifts with
    | named _ _ _ once => exact absurd once (by decide +kernel)
    | shortened _ _ offset => exact absurd offset (by decide +kernel)
  obtain ⟨again, settled, isAgain, isSettled, settles⟩ := write_again_iff known reads isWritten (by decide)
  rw [settles.mpr stays] at isSettled
  exact ⟨known, reads, isWritten, again, isAgain, isSettled⟩

/-- Not every rule is written as the same text again: a calendar that is always five hours behind UTC
first writes the repeated time of New York alone, then with the name of its own zone. -/
theorem not_forall_write_again :
    ¬∀ (calendar : Calendar) (rule : Rule) (text formatted : String) (limit : Int),
      calendar.zone.Known → readText calendar limit text = .ok rule →
        write calendar rule = some formatted → (formatted.toList.length : Int) ≤ limit →
          ∃ again, readText calendar limit formatted = .ok again ∧
            write calendar again = some formatted := by
  intro always
  have known : (Zone.steady "Etc/GMT+5" (-18000)).Known := .inl ⟨"Etc/GMT+5", by decide +kernel⟩
  have reads : readText ⟨.steady "Etc/GMT+5" (-18000), .monday⟩ 80
      "FREQ=DAILY;UNTIL=TZID=America/New_York:20241103T013000" = .ok dailyUntil := by
    simp only [readText, readPartial_eq]
    decide +kernel
  have isWritten : write ⟨.steady "Etc/GMT+5" (-18000), .monday⟩ dailyUntil =
      some "FREQ=DAILY;UNTIL=20241103T013000" := by
    decide +kernel
  have isAgain : readText ⟨.steady "Etc/GMT+5" (-18000), .monday⟩ 80
      "FREQ=DAILY;UNTIL=20241103T013000" =
        .ok { dailyUntil with
          ending := .afterDate { repeatedHour with
            offset := -18000000000, zone := .steady "Etc/GMT+5" (-18000) } } := by
    simp only [readText, readPartial_eq]
    decide +kernel
  obtain ⟨again, isRead, same⟩ := always _ dailyUntil _ _ 80 known reads isWritten (by decide)
  rw [isAgain] at isRead
  obtain rfl := Except.ok.inj isRead
  exact absurd same (by decide +kernel)

end Recurrence.RuleText
