import Recurrence.Proofs.Rule.Characters
import Recurrence.Proofs.Zone.Edge
import Recurrence.Zone.Table

namespace Recurrence

/-! Which rules can be written.

Only the last date of a rule can keep it from being written, by a conversion that leaves the calendar.
`RuleText.Overflows` lists the ways in which this happens: the calendar is in another zone, or a key names a
zone with another offset than the date itself.  Every other rule is written, in ASCII:
`RuleText.exists_write_iff`.
-/

namespace Zone

/-- Whether an instant and what the clocks of a zone show at it both lie in the calendar. -/
def Covers (zone : Zone) (instant : Int) : Prop :=
  (0 ≤ instant ∧ instant < calendarMicros) ∧ 0 ≤ zone.clock instant ∧ zone.clock instant < calendarMicros

instance (zone : Zone) (instant : Int) : Decidable (zone.Covers instant) :=
  inferInstanceAs (Decidable (_ ∧ _))

/-- A reader starts from how often the time is shown. -/
theorem History.read_of_phaseFor {history : History} {time : WallTime} {choice : Bool} {phase : Phase}
    (found : history.phaseFor .reader choice time = some phase) :
    ∃ reading, history.read time = some reading := by
  have opened : history.phaseFor .reader choice time =
      history.phaseWithin choice (14608235 + 1) time := rfl
  rw [opened, phaseWithin] at found
  cases read : history.read time with
  | none =>
      rw [read] at found
      contradiction
  | some reading => exact ⟨reading, rfl⟩

theorem at_eq_none {zone : Zone} {instant : Int} :
    zone.at instant = none ↔ ¬zone.Covers instant := by
  rw [← Option.not_isSome_iff_eq_none, at_isSome]
  rfl

theorem judge_isSome {history : History} {time : WallTime} :
    (showsOnce.judge time history).isSome = true ↔
      time.InCalendar ((Zone.varying history .reader).offsetAt time.micros) := by
  rw [showsOnce.judge, Option.isSome_map, History.read_isSome history .reader]

section

variable [Directory]

/-- The history by which it is judged how often a zone shows a time. -/
def judge? (zone : Zone) : Option History :=
  match zone with
  | .steady _ _ => none
  | .varying history .reader => some history
  | .varying _ (.plain key _) => judgeNamed? key
  | .fixed _ key _ => judgeNamed? key
where
  judgeNamed? : Option String → Option History
    | none => none
    | some key =>
        match resolve? key with
        | some (.varying history _) => some history
        | _ => none

/-- Whether it can be told how often a zone shows a time: by the clocks that judge it, the time has an
instant in the calendar. -/
def Tells (zone : Zone) (time : WallTime) : Prop :=
  ∀ history ∈ zone.judge?, time.InCalendar ((Zone.varying history .reader).offsetAt time.micros)

variable {zone : Zone} {time : WallTime}

theorem judgeNamed_isSome {key : Option String} :
    (showsOnce.judgeNamed time key).isSome = true ↔
      ∀ history ∈ judge?.judgeNamed? key,
        time.InCalendar ((Zone.varying history .reader).offsetAt time.micros) := by
  cases key with
  | none => simp [showsOnce.judgeNamed, judge?.judgeNamed?]
  | some key =>
      cases resolved : resolve? key with
      | none => simp [showsOnce.judgeNamed, judge?.judgeNamed?, resolved]
      | some named =>
          cases named with
          | steady | fixed => simp [showsOnce.judgeNamed, judge?.judgeNamed?, resolved]
          | varying history => simp [showsOnce.judgeNamed, judge?.judgeNamed?, resolved, judge_isSome]

theorem showsOnce_isSome : (zone.showsOnce time).isSome = true ↔ zone.Tells time := by
  cases zone with
  | steady => simp [showsOnce, Tells, judge?]
  | fixed offset key mark => exact judgeNamed_isSome
  | varying history manner =>
      cases manner with
      | reader => simp [showsOnce, Tells, judge?, judge_isSome]
      | plain key mark => exact judgeNamed_isSome

theorem showsOnce_eq_none : zone.showsOnce time = none ↔ ¬zone.Tells time := by
  rw [← showsOnce_isSome, Option.not_isSome_iff_eq_none]

/-- A time that is read in a zone with a reader can be told there. -/
theorem tells_of_localizeWith {choice : Bool} {moment : Moment} (reader : zone.hasReader = true)
    (read : zone.localizeWith time choice = some moment) : zone.Tells time := by
  cases zone with
  | steady => exact nofun
  | fixed => contradiction
  | varying history manner =>
      cases manner with
      | plain key mark => contradiction
      | reader =>
          simp only [localizeWith, Option.map_eq_some_iff] at read
          obtain ⟨phase, found, _⟩ := read
          obtain ⟨reading, reads⟩ := History.read_of_phaseFor found
          rw [← showsOnce_isSome, showsOnce, showsOnce.judge, reads]
          rfl

/-- A zone without a reader is judged by the history of a zone that its key names. -/
theorem resolve?_of_judge? {history : History} (readless : zone.hasReader = false)
    (judges : zone.judge? = some history) :
    ∃ key manner, zone.name? = some key ∧ resolve? key = some (.varying history manner) := by
  have ofNamed {key : Option String} (judges : judge?.judgeNamed? key = some history) :
      ∃ name manner, key = some name ∧ resolve? name = some (.varying history manner) := by
    cases key with
    | none => contradiction
    | some name =>
        simp only [judge?.judgeNamed?] at judges
        split at judges
        · next manner resolved =>
            cases judges
            exact ⟨name, manner, rfl, resolved⟩
        · contradiction
  cases zone with
  | steady => contradiction
  | fixed offset key mark => exact ofNamed judges
  | varying own manner =>
      cases manner with
      | reader => contradiction
      | plain key mark => exact ofNamed judges

end

end Zone

namespace RuleText

def Ascii (chars : List Char) : Prop := chars.all RuleGuard.isAscii = true

instance (chars : List Char) : Decidable (Ascii chars) :=
  inferInstanceAs (Decidable (chars.all RuleGuard.isAscii = true))

theorem ascii_iff {chars : List Char} : Ascii chars ↔ ∀ c ∈ chars, RuleGuard.isAscii c = true :=
  List.all_eq_true

theorem ascii_append {first second : List Char} :
    Ascii (first ++ second) ↔ Ascii first ∧ Ascii second := by
  simp only [ascii_iff, List.forall_mem_append]

theorem ascii_of_plain {chars : List Char} (plain : Plain chars) : Ascii chars := by
  refine ascii_iff.mpr fun c member => decide_eq_true ?_
  have isPlain := plain_iff.mp plain c member
  simp only [RuleText.isPlain, Bool.and_eq_true, decide_eq_true_eq] at isPlain
  omega

theorem ascii_join {separator : Char} {pieces : List (List Char)}
    (between : RuleGuard.isAscii separator = true) (each : ∀ piece ∈ pieces, Ascii piece) :
    Ascii (join separator pieces) :=
  ascii_iff.mpr (forall_mem_join between fun piece member => ascii_iff.mp (each piece member))

theorem ascii_of_resolve? [Zone.Directory] {name : String} {zone : Zone}
    (resolved : Zone.resolve? name = some zone) :
    Ascii name.toList := by
  refine ascii_of_plain (plain_iff.mpr fun c member => ?_)
  exact isPlain_of_isNameChar (Zone.isNameChar_of_resolve? resolved c member)

end RuleText

/-- Dates as they come about: a wall-clock time is read in a zone with an ASCII name, with either choice
for a repeated or skipped time, or stands in a zone without a reader, whatever key this has. -/
structure Moment.Placed (date : Moment) : Prop where
  read : ∃ choice, date.zone.localizeWith date.wall choice = some date
  named : date.zone.hasReader = false ∨ ∀ name ∈ date.zone.name?, RuleText.Ascii name.toList

/-- Dropping the fraction of the second leaves a date such as it may come about. -/
theorem Moment.Placed.truncate {date : Moment} (placed : date.Placed) : date.truncate.Placed where
  read := Zone.exists_read_truncate placed.read
  named := placed.named

/-- A calendar always shows the dates of its own zone, and others if it covers them. -/
theorem Calendar.localize_aware_eq_none {calendar : Calendar} {date : Moment} :
    calendar.localize (.aware date) = none ↔
      calendar.zone.keeps date.zone = false ∧ ¬calendar.zone.Covers date.instant := by
  rw [localize, ← Zone.at_eq_none]
  cases calendar.zone.keeps date.zone with
  | true => simp
  | false => simp

namespace RuleText

theorem not_day {date : Moment} {own : Bool} (notDay : own = true → date.wall.secondOfDay ≠ 0) :
    ¬(own && date.wall.secondOfDay == 0) = true := by
  rw [Bool.and_eq_true, beq_iff_eq]
  exact not_and.mpr notDay

variable [Zone.Directory] {calendar : Calendar} {date : Moment}

/-- How the conversions that writing a date needs can leave the calendar. -/
inductive Overflows (calendar : Calendar) (date : Moment) : Prop
  /-- The calendar is in another zone and cannot show the date. -/
  | shown (other : calendar.zone.keeps date.zone = false)
      (hidden : ¬calendar.zone.Covers date.instant)
  /-- The calendar shows the date's own time, and by its zone this time cannot be judged. -/
  | compared (same : calendar.zone.face date = date.wall.micros)
      (untold : ¬calendar.zone.Tells date.wall)
  /-- By the date's zone its time cannot be judged, and it has no shorter form. -/
  | named (notDay : isLocal calendar date = some true → date.wall.secondOfDay ≠ 0)
      (ahead : date.offset ≠ 0) (untold : ¬date.zone.Tells date.wall)
  /-- The calendar and the date are in one zone, which is not taken to show the time once, and the instant is
  converted to UTC. -/
  | moved (own : calendar.zone.keeps date.zone = true)
      (unnamed : date.zone.showsOnce date.wall = some false) (ahead : date.offset ≠ 0)
      (outside : ¬Zone.utc.Covers date.instant)

theorem isLocal_of_shown {shown : Moment} (shows : calendar.localize (.aware date) = some shown) :
    isLocal calendar date =
      if date.offset = shown.offset then calendar.zone.showsOnce shown.wall else some false := by
  rw [isLocal, shows]
  rfl

/-- A date that a calendar shows is compared with what the calendar shows of it. -/
theorem isLocal_eq {shown : Moment} (shows : calendar.localize (.aware date) = some shown) :
    isLocal calendar date =
      if calendar.zone.face date = date.wall.micros then calendar.zone.showsOnce date.wall
      else some false := by
  have instant : (shown.wall.micros : Int) - shown.offset = date.wall.micros - date.offset :=
    Calendar.instant_of_shown shows
  rw [isLocal_of_shown shows, ← Calendar.face_of_shown shows]
  by_cases same : date.offset = shown.offset
  · have wall := Moment.wall_eq_of_instant (Calendar.instant_of_shown shows) same.symm
    rw [if_pos same, if_pos (by rw [wall]), wall]
  · rw [if_neg same, if_neg (by omega)]

theorem own_iff {own : Bool} (isOwn : isLocal calendar date = some own) :
    own = true ↔ calendar.zone.face date = date.wall.micros ∧
      calendar.zone.showsOnce date.wall = some true := by
  cases shows : calendar.localize (.aware date) with
  | none =>
      rw [isLocal, shows] at isOwn
      contradiction
  | some shown =>
      rw [isLocal_eq shows] at isOwn
      split at isOwn
      · next same => simp [same, isOwn]
      · next differs => simp [differs, ← Option.some.inj isOwn]

theorem isLocal_eq_none_iff :
    isLocal calendar date = none ↔
      (calendar.zone.keeps date.zone = false ∧ ¬calendar.zone.Covers date.instant) ∨
        calendar.zone.face date = date.wall.micros ∧ ¬calendar.zone.Tells date.wall := by
  rw [← Calendar.localize_aware_eq_none]
  cases shows : calendar.localize (.aware date) with
  | none => simp [isLocal, shows]
  | some shown =>
      rw [isLocal_eq shows, ← Zone.showsOnce_eq_none]
      split
      · next same => simp [same]
      · next differs => simp [differs]

theorem dateForm_of_untold (untold : isLocal calendar date = none) : dateForm calendar date = none := by
  rw [dateForm, untold]
  rfl

/-- Of a date that is written it can be told whether it is local. -/
theorem exists_isLocal_of_dateForm {form : DateForm} (formed : dateForm calendar date = some form) :
    ∃ own, isLocal calendar date = some own := by
  cases isOwn : isLocal calendar date with
  | none =>
      rw [dateForm_of_untold isOwn] at formed
      contradiction
  | some own => exact ⟨own, rfl⟩

/-- Past the two forms that need no zone, the name of the date's zone decides. -/
theorem dateForm_of_ahead {own : Bool} (isOwn : isLocal calendar date = some own)
    (notDay : own = true → date.wall.secondOfDay ≠ 0) (ahead : date.offset ≠ 0) :
    dateForm calendar date = (zoneName? date).bind fun
      | some name => some (.zoned name date.wall)
      | none =>
          if own then some (.plain date.wall)
          else (Zone.utc.at date.instant).map fun shown => .utc shown.wall := by
  have notMidnight := Bool.eq_false_iff.mpr (not_day notDay)
  have notUtc : (date.offset == 0) = false := beq_eq_false_iff_ne.mpr ahead
  rw [dateForm, isOwn]
  simp only [Option.bind_eq_bind, Option.bind_some, notMidnight, notUtc]
  cases zoneName? date with
  | none => rfl
  | some name? =>
      cases name? with
      | some name => rfl
      | none =>
          cases own with
          | true => rfl
          | false => cases Zone.utc.at date.instant <;> rfl

/-- A date in UTC is written as a day if it is a midnight of the calendar, else as a time in UTC. -/
theorem dateForm_of_utc {own : Bool} (isOwn : isLocal calendar date = some own)
    (unmoved : date.offset = 0) :
    dateForm calendar date =
      some (if own && date.wall.secondOfDay == 0 then .day date.wall else .utc date.wall) := by
  rw [dateForm, isOwn, unmoved]
  simp only [Option.bind_eq_bind, Option.bind_some, beq_self_eq_true, if_true]
  split <;> rfl

theorem resolve?_ne_nil {key : String} {zone : Zone} (resolved : Zone.resolve? key = some zone) :
    key.isEmpty = false :=
  (Zone.find?_of_resolve? resolved).1

/-- Only a key can leave it open how often a placed date is shown, and then it is the name of a zone. -/
theorem exists_name_of_untold (placed : date.Placed) (untold : ¬date.zone.Tells date.wall) :
    ∃ name, date.zone.name? = some name ∧ name.isEmpty = false := by
  cases reader : date.zone.hasReader with
  | true =>
      obtain ⟨choice, read⟩ := placed.read
      exact absurd (Zone.tells_of_localizeWith reader read) untold
  | false =>
      simp only [Zone.Tells, not_forall] at untold
      obtain ⟨history, judges, _⟩ := untold
      obtain ⟨key, manner, isKey, resolved⟩ := Zone.resolve?_of_judge? reader judges
      exact ⟨key, isKey, resolve?_ne_nil resolved⟩

theorem zoneName?_eq_none_iff (placed : date.Placed) :
    zoneName? date = none ↔ ¬date.zone.Tells date.wall := by
  rw [← Zone.showsOnce_eq_none]
  constructor
  · intro unnamed
    unfold zoneName? at unnamed
    split at unnamed
    · contradiction
    · split at unnamed
      · contradiction
      · exact Option.map_eq_none_iff.mp unnamed
  · intro untold
    obtain ⟨name, isName, filled⟩ := exists_name_of_untold placed (Zone.showsOnce_eq_none.mp untold)
    rw [zoneName?, isName]
    simp only [filled, Bool.false_eq_true, if_false, untold, Option.map_none]

theorem zoneName?_of_not_once (unnamed : date.zone.showsOnce date.wall = some false) :
    zoneName? date = some none := by
  unfold zoneName?
  split
  · rfl
  · split
    · rfl
    · rw [unnamed]
      rfl

theorem ahead_of_unformed {own : Bool} (isOwn : isLocal calendar date = some own)
    (unformed : dateForm calendar date = none) :
    (own = true → date.wall.secondOfDay ≠ 0) ∧ date.offset ≠ 0 := by
  rw [dateForm, isOwn] at unformed
  simp only [Option.bind_eq_bind, Option.bind_some] at unformed
  split at unformed
  · contradiction
  · next notDay =>
      split at unformed
      · contradiction
      · next notUtc =>
          refine ⟨fun isTrue midnight => notDay ?_, fun utc => notUtc (beq_iff_eq.mpr utc)⟩
          rw [isTrue, midnight]
          rfl

/-- A date whose instant lies outside the calendar is only shown by a calendar in its own zone. -/
theorem keeps_of_outside (notOwn : isLocal calendar date = some false)
    (outside : ¬Zone.utc.Covers date.instant) :
    calendar.zone.keeps date.zone = true ∧ date.zone.showsOnce date.wall = some false := by
  cases keeps : calendar.zone.keeps date.zone with
  | true =>
      refine ⟨rfl, ?_⟩
      have shows : calendar.localize (.aware date) = some date := by
        rw [Calendar.localize, if_pos keeps]
      rw [isLocal_of_shown shows, if_pos rfl, Zone.eq_of_keeps keeps] at notOwn
      exact notOwn
  | false =>
      cases shown : calendar.zone.at date.instant with
      | none =>
          have unshown := Calendar.localize_aware_eq_none.mpr ⟨keeps, Zone.at_eq_none.mp shown⟩
          rw [isLocal, unshown] at notOwn
          contradiction
      | some moment =>
          have inside := Zone.at_isSome.mp (Option.isSome_iff_exists.mpr ⟨moment, shown⟩)
          refine absurd ?_ outside
          simp only [Zone.Covers, Zone.clock, Zone.offsetAt, Zone.utc]
          omega

theorem overflows_of_dateForm (placed : date.Placed) (unformed : dateForm calendar date = none) :
    Overflows calendar date := by
  cases isOwn : isLocal calendar date with
  | none =>
      rcases isLocal_eq_none_iff.mp isOwn with ⟨other, hidden⟩ | ⟨same, untold⟩
      · exact .shown other hidden
      · exact .compared same untold
  | some own =>
      obtain ⟨notDay, ahead⟩ := ahead_of_unformed isOwn unformed
      rw [dateForm_of_ahead isOwn notDay ahead] at unformed
      cases isNamed : zoneName? date with
      | none =>
          refine .named (fun isTrue => notDay ?_) ahead ((zoneName?_eq_none_iff placed).mp isNamed)
          exact Option.some.inj (isOwn.symm.trans isTrue)
      | some name? =>
          rw [isNamed, Option.bind_some] at unformed
          cases name? with
          | some name => contradiction
          | none =>
              cases own with
              | true => contradiction
              | false =>
                  have outside := Zone.at_eq_none.mp (Option.map_eq_none_iff.mp unformed)
                  obtain ⟨keeps, unnamed⟩ := keeps_of_outside isOwn outside
                  exact .moved keeps unnamed ahead outside

theorem dateForm_eq_none_of_overflows (placed : date.Placed) (overflows : Overflows calendar date) :
    dateForm calendar date = none := by
  have unknown := @isLocal_eq_none_iff _ calendar date
  cases overflows with
  | shown other hidden => exact dateForm_of_untold (unknown.mpr (.inl ⟨other, hidden⟩))
  | compared same untold => exact dateForm_of_untold (unknown.mpr (.inr ⟨same, untold⟩))
  | named notDay ahead untold =>
      cases isOwn : isLocal calendar date with
      | none => exact dateForm_of_untold isOwn
      | some own =>
          rw [dateForm_of_ahead isOwn ?_ ahead, (zoneName?_eq_none_iff placed).mpr untold]
          · rfl
          · intro isTrue
            rw [isTrue] at isOwn
            exact notDay isOwn
  | moved own unnamed ahead outside =>
      have shows : calendar.localize (.aware date) = some date := by
        rw [Calendar.localize, if_pos own]
      have notOwn : isLocal calendar date = some false := by
        rw [isLocal_of_shown shows, if_pos rfl, Zone.eq_of_keeps own, unnamed]
      rw [dateForm_of_ahead notOwn Bool.noConfusion ahead, zoneName?_of_not_once unnamed,
        Zone.at_eq_none.mpr outside]
      rfl

theorem ascii_name {name : String} (placed : date.Placed)
    (named : zoneName? date = some (some name)) : Ascii name.toList := by
  obtain ⟨isName, once⟩ := zoneName?_eq_some named
  rcases placed.named with readless | ascii
  · obtain ⟨zone, resolved, _⟩ := Zone.showsOnce_of_not_hasReader readless isName once
    exact ascii_of_resolve? resolved
  · exact ascii name isName

theorem ascii_dateForm {form : DateForm} (placed : date.Placed)
    (formed : dateForm calendar date = some form) : Ascii form.chars := by
  have marked (time : WallTime) : Plain (dateTimeChars time ++ ['Z']) :=
    plain_append.mpr ⟨plain_dateTimeChars time, by decide⟩
  rcases dateForm_cases formed with ⟨rfl, _⟩ | ⟨rfl, _⟩ | ⟨name, rfl, named⟩ | ⟨rfl, _⟩ |
    ⟨shown, rfl, _⟩
  · exact ascii_of_plain (plain_dateChars date.wall)
  · exact ascii_of_plain (marked date.wall)
  · have place : Plain (':' :: dateTimeChars date.wall) :=
      plain_cons.mpr ⟨rfl, plain_dateTimeChars date.wall⟩
    exact ascii_append.mpr ⟨ascii_append.mpr ⟨by decide, ascii_name placed named⟩,
      ascii_of_plain place⟩
  · exact ascii_of_plain (plain_dateTimeChars date.wall)
  · exact ascii_of_plain (marked shown.wall)

section Written

variable {rule : Rule}

theorem ascii_endingPieces {ending : Ending} {pieces : List (List Char)}
    (placed : ∀ date ∈ ending.date?, date.Placed)
    (isWritten : endingPieces calendar ending = some pieces) : ∀ piece ∈ pieces, Ascii piece := by
  cases ending with
  | never =>
      cases isWritten
      exact List.forall_mem_nil _
  | afterCount count =>
      cases isWritten
      exact List.forall_mem_singleton.mpr
        (ascii_of_plain (plain_assigned (by decide) (plain_ofInt count 0)))
  | afterDate date =>
      obtain ⟨form, formed, rfl⟩ := Option.map_eq_some_iff.mp isWritten
      have shown : Ascii ("UNTIL=".toList ++ form.chars) :=
        ascii_append.mpr ⟨by decide, ascii_dateForm (placed date rfl) formed⟩
      exact List.forall_mem_singleton.mpr shown

theorem ascii_rulePieces {pieces : List (List Char)}
    (placed : ∀ date ∈ rule.ending.date?, date.Placed)
    (isWritten : rulePieces calendar rule = some pieces) : ∀ piece ∈ pieces, Ascii piece := by
  obtain ⟨ending, isEnding, rfl⟩ := Option.map_eq_some_iff.mp isWritten
  have frequency : Plain rule.frequency.name.toList := by cases rule.frequency <;> decide
  have interval : ∀ piece ∈ intervalPieces rule, Ascii piece := by
    unfold intervalPieces
    split
    · exact List.forall_mem_singleton.mpr
        (ascii_of_plain (plain_assigned (by decide) (plain_ofInt rule.interval 0)))
    · exact List.forall_mem_nil _
  have parts : ∀ piece ∈ partPieces rule, Ascii piece := by
    intro piece member
    obtain ⟨part, _, rfl⟩ := List.mem_map.mp member
    exact ascii_of_plain (plain_assigned (plain_key part) (plain_partValue rule part))
  refine List.forall_mem_append.mpr ⟨List.forall_mem_append.mpr ⟨?_, interval⟩, parts⟩
  exact List.forall_mem_cons.mpr ⟨ascii_of_plain (plain_assigned (by decide) frequency),
    ascii_endingPieces placed isEnding⟩

theorem write_isSome_iff (placed : ∀ date ∈ rule.ending.date?, date.Placed) :
    (write calendar rule).isSome = true ↔ ∀ date ∈ rule.ending.date?, ¬Overflows calendar date := by
  rw [write, rulePieces, Option.isSome_map, Option.isSome_map]
  cases isEnding : rule.ending with
  | never => exact iff_of_true rfl nofun
  | afterCount => exact iff_of_true rfl nofun
  | afterDate date =>
      rw [endingPieces, Option.isSome_map, Option.isSome_iff_ne_none]
      have placed : date.Placed := placed date (by rw [isEnding]; rfl)
      constructor
      · intro formed other member overflows
        cases member
        exact formed (dateForm_eq_none_of_overflows placed overflows)
      · intro within unformed
        exact within date rfl (overflows_of_dateForm placed unformed)

/-- A rule is written as an ASCII text unless a conversion of its last date leaves the calendar.  The
date may be any that comes about, whatever zone or key it has. -/
theorem exists_write_iff
    (placed : ∀ date ∈ rule.ending.date?, ∃ made : Moment, made.Placed ∧ date = made.truncate) :
    (∃ text, write calendar rule = some text ∧ Ascii text.toList) ↔
      ∀ date ∈ rule.ending.date?, ¬Overflows calendar date := by
  have placed : ∀ date ∈ rule.ending.date?, date.Placed := by
    intro date member
    obtain ⟨made, placed, rfl⟩ := placed date member
    exact placed.truncate
  rw [← write_isSome_iff placed]
  constructor
  · intro written
    obtain ⟨text, isWritten, _⟩ := written
    rw [isWritten]
    rfl
  · intro written
    obtain ⟨text, isWritten⟩ := Option.isSome_iff_exists.mp written
    refine ⟨text, isWritten, ?_⟩
    obtain ⟨pieces, isPieces, rfl⟩ := Option.map_eq_some_iff.mp isWritten
    rw [String.toList_ofList]
    exact ascii_join (by decide) (ascii_rulePieces placed isPieces)

end Written

end RuleText

namespace RuleText

attribute [local instance] Zone.table

/-- The last second of the calendar, five hours behind UTC. -/
def lastSecond : Moment := ⟨⟨315537897599000000, by decide⟩, -18000000000, .steady "Etc/GMT+5" (-18000)⟩

def untilTheEnd : Rule where
  frequency := .daily
  ending := .afterDate lastSecond

theorem placed_lastSecond : lastSecond.Placed where
  read := ⟨false, rfl⟩
  named := by
    right
    intro name isName
    cases isName
    decide

theorem made_lastSecond : ∀ date ∈ untilTheEnd.ending.date?,
    ∃ made : Moment, made.Placed ∧ date = made.truncate := by
  intro date member
  cases member
  exact ⟨lastSecond, placed_lastSecond, rfl⟩

/-- In its own zone the last second is written; a calendar in UTC would have to show the year 10000. -/
theorem exists_write_untilTheEnd :
    (∀ date ∈ untilTheEnd.ending.date?, ¬Overflows ⟨lastSecond.zone, .monday⟩ date) ∧
      Overflows {} lastSecond ∧
      ¬∃ text, write {} untilTheEnd = some text ∧ Ascii text.toList := by
  have isWritten : write ⟨lastSecond.zone, .monday⟩ untilTheEnd =
      some "FREQ=DAILY;UNTIL=TZID=Etc/GMT+5:99991231T235959" := by
    decide +kernel
  have overflows : Overflows {} lastSecond := .shown rfl (by decide)
  refine ⟨(exists_write_iff made_lastSecond).mp ⟨_, isWritten, by decide⟩, overflows, ?_⟩
  intro written
  exact (exists_write_iff made_lastSecond).mp written lastSecond rfl overflows

/-- Not every rule is written: the last second of the calendar may be behind it in another zone. -/
theorem not_forall_exists_write :
    ¬∀ (calendar : Calendar) (rule : Rule), rule.Valid →
      (∀ date ∈ rule.ending.date?, ∃ made : Moment, made.Placed ∧ date = made.truncate) →
        ∃ text, write calendar rule = some text ∧ Ascii text.toList := by
  intro always
  obtain ⟨text, isWritten, _⟩ := always {} untilTheEnd (by decide) made_lastSecond
  have unwritten : write {} untilTheEnd = none := by decide +kernel
  rw [unwritten] at isWritten
  contradiction

end RuleText

end Recurrence
