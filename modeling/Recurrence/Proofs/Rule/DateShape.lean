import Recurrence.Proofs.Rule.Overrun

namespace Recurrence

/-! Which values a last date may have.

A value has one of five shapes: a date, or a date with a time of day, in the calendar's zone or in a
zone that is named in front, or a date with a time of day and the mark of UTC.  Its fields are digits,
and they name a time that exists.  One thing more is accepted: a field of the time of day that is zero
may have a minus in place of its first digit (`Until.Field`).
-/

/-- A number of a fixed count of digits. -/
structure Digits.Figures (count : Nat) (chars : List Char) (n : Nat) : Prop where
  length : chars.length = count
  spells : Spells chars n

theorem exists_append_of_le {α : Type} {items : List α} {count : Nat} (long : count ≤ items.length) :
    ∃ front back, items = front ++ back ∧ front.length = count :=
  ⟨items.take count, items.drop count, (List.take_append_drop count items).symm,
    List.length_take_of_le long⟩

theorem cutAt?_append {separator : Char} {front : List Char} (absent : separator ∉ front)
    (rest : List Char) :
    cutAt? separator (front ++ rest) =
      (cutAt? separator rest).map fun halves => (front ++ halves.1, halves.2) := by
  induction front with
  | nil => simp
  | cons c front ih =>
      obtain ⟨differs, absent⟩ := not_or.1 (mt List.mem_cons.2 absent)
      rw [List.cons_append, cutAt?, if_neg (Ne.symm differs), ih absent, Option.map_map]
      rfl

namespace Until

open Digits (Figures)

/-- A field of a time of day as it is read: two digits, or a zero behind a minus. -/
inductive Field : List Char → Nat → Prop
  | digits {chars : List Char} {n : Nat} (figures : Figures 2 chars n) : Field chars n
  | minusZero : Field ['-', '0'] 0

inductive SpellsDate : List Char → CivilDate → Prop
  | intro {year month day : List Char} {date : CivilDate} (isYear : Figures 4 year date.year)
      (isMonth : Figures 2 month date.month) (isDay : Figures 2 day date.day) :
      SpellsDate (year ++ (month ++ day)) date

section Shapes

variable (field : List Char → Nat → Prop)

inductive SpellsClock : List Char → WallTime → Prop
  | intro {hour minute second : List Char} {time : WallTime} (isHour : field hour time.hour)
      (isMinute : field minute time.minute) (isSecond : field second time.second) :
      SpellsClock (hour ++ (minute ++ second)) time

/-- A date is that of its midnight, and with a time of day it is a whole second. -/
inductive SpellsTime : List Char → WallTime → Prop
  | day {date : List Char} {time : WallTime} (spells : SpellsDate date time.date)
      (midnight : time.microOfDay = 0) : SpellsTime date time
  | second {date clock : List Char} {time : WallTime} (spells : SpellsDate date time.date)
      (shows : SpellsClock field clock time) (whole : time.microsecond = 0) :
      SpellsTime (date ++ 'T' :: clock) time

variable [Zone.Directory]

/-- The value of a last date stands for a time in a zone. -/
inductive Shape (calendar : Calendar) : List Char → Zone → WallTime → Prop
  | own {date : List Char} {time : WallTime} (spells : SpellsTime field date time) :
      Shape calendar date calendar.zone time
  | utc {date clock : List Char} {time : WallTime} (spells : SpellsDate date time.date)
      (shows : SpellsClock field clock time) (whole : time.microsecond = 0) :
      Shape calendar (date ++ 'T' :: clock ++ ['Z']) .utc time
  | named {name : String} {zone : Zone} {date : List Char} {time : WallTime}
      (resolved : Zone.resolve? name = some zone) (spells : SpellsTime field date time) :
      Shape calendar ("TZID=".toList ++ name.toList ++ ':' :: date) zone time

end Shapes

variable {chars value : List Char} {time : WallTime} {n : Nat}

theorem Field.length (isField : Field chars n) : chars.length = 2 := by
  cases isField with
  | digits figures => exact figures.length
  | minusZero => rfl

theorem SpellsDate.length {date : CivilDate} (spells : SpellsDate chars date) : chars.length = 8 := by
  cases spells with
  | intro isYear isMonth isDay =>
      rw [List.length_append, List.length_append, isYear.length, isMonth.length, isDay.length]

theorem SpellsClock.length (shows : SpellsClock Field chars time) : chars.length = 6 := by
  cases shows with
  | intro isHour isMinute isSecond =>
      rw [List.length_append, List.length_append, isHour.length, isMinute.length, isSecond.length]

theorem SpellsDate.length_clock {date : CivilDate} {clock : List Char}
    (spells : SpellsDate chars date) (shows : SpellsClock Field clock time) :
    (chars ++ 'T' :: clock).length = 15 := by
  rw [List.length_append, List.length_cons, spells.length, shows.length]

theorem eq_zero_of_digitValue {c : Char} (digit : Digits.isDigit c = true)
    (zero : Digits.digitValue c = 0) : c = '0' := by
  simp only [Digits.isDigit, Digits.digitValue, Bool.and_eq_true, decide_eq_true_eq] at digit zero
  have least : '0'.toNat ≤ c.toNat := digit.1
  have code : '0'.toNat = 48 := rfl
  exact Char.toNat_inj.1 (by omega)

/-- Of two characters that are read as a signed number, only a zero has a sign. -/
theorem spellsInt_iff_field (two : chars.length = 2) :
    Digits.SpellsInt chars (n : Int) ↔ Field chars n := by
  constructor
  · intro spells
    generalize isValue : (n : Int) = value at spells
    cases spells with
    | plain spells =>
        obtain rfl : n = _ := Int.ofNat.inj isValue
        exact .digits ⟨two, spells⟩
    | @minus digits m spells =>
        obtain ⟨rfl, rfl⟩ : n = 0 ∧ m = 0 := by omega
        obtain ⟨c, rfl⟩ := List.length_eq_one_iff.1 (Nat.succ.inj two)
        have zero : Digits.digitValue c = 0 := by simpa using spells.value
        rw [eq_zero_of_digitValue spells.head_isDigit zero]
        exact .minusZero
  · intro isField
    cases isField with
    | digits figures => exact .plain figures.spells
    | minusZero => exact Digits.readInt_eq_some.1 (by decide)

theorem read_eq_some_iff_field {least greatest : Int} (two : chars.length = 2) (lower : least ≤ n)
    (upper : n ≤ greatest) :
    (Domain.mk least greatest true).read chars = some (n : Int) ↔ Field chars n := by
  rw [Domain.read_eq_some, Domain.Spells, spellsInt_iff_field two]
  exact and_iff_left (has_of_bounds lower upper)

theorem Field.figures (isField : Field chars n) (positive : 1 ≤ n) : Figures 2 chars n := by
  cases isField with
  | digits figures => exact figures
  | minusZero => contradiction

theorem parts?_eq_some_parts :
    parts? chars = some time.parts ↔
      timeOfDay chars = some ((time.hour : Int), (time.minute : Int), (time.second : Int)) ∧
        Digits.readNat (chars.take 4) = some time.date.year ∧
        twoDigits ⟨1, 12, true⟩ chars 4 = some (time.date.month : Int) ∧
        twoDigits ⟨1, 31, true⟩ chars 6 = some (time.date.day : Int) := by
  simp only [parts?, WallTime.parts, Option.bind_eq_bind, Option.bind_eq_some_iff, Option.pure_def,
    Option.some.injEq, DateParts.mk.injEq]
  constructor
  · intro made
    obtain ⟨clock, reads, year, isYear, month, isMonth, day, isDay, same⟩ := made
    obtain ⟨sameYear, rfl, rfl, hour, minute, second⟩ := same
    obtain rfl : year = time.date.year := Int.ofNat.inj sameYear
    rw [← hour, ← minute, ← second]
    exact ⟨reads, isYear, isMonth, isDay⟩
  · intro reads
    obtain ⟨clock, isYear, isMonth, isDay⟩ := reads
    exact ⟨_, clock, _, isYear, _, isMonth, _, isDay, rfl, rfl, rfl, rfl, rfl, rfl⟩

/-- The first eight characters of a longer text are read as a date exactly if they spell it. -/
theorem readsDate_iff (long : 8 ≤ chars.length) :
    (Digits.readNat (chars.take 4) = some time.date.year ∧
      twoDigits ⟨1, 12, true⟩ chars 4 = some (time.date.month : Int) ∧
      twoDigits ⟨1, 31, true⟩ chars 6 = some (time.date.day : Int)) ↔
        ∃ date rest, chars = date ++ rest ∧ SpellsDate date time.date := by
  have bounds := time.date_bounds
  obtain ⟨year, behindYear, rfl, fourLong⟩ := @exists_append_of_le _ chars 4 (by omega)
  rw [List.length_append] at long
  obtain ⟨month, behindMonth, rfl, monthLong⟩ := @exists_append_of_le _ behindYear 2 (by omega)
  rw [List.length_append] at long
  obtain ⟨day, rest, rfl, dayLong⟩ := @exists_append_of_le _ behindMonth 2 (by omega)
  have readsMonth : twoDigits ⟨1, 12, true⟩ (year ++ (month ++ (day ++ rest))) 4 =
      some (time.date.month : Int) ↔ Field month time.date.month := by
    rw [twoDigits_append year month (day ++ rest) rfl fourLong monthLong]
    exact read_eq_some_iff_field monthLong (by omega) (by omega)
  have readsDay : twoDigits ⟨1, 31, true⟩ (year ++ (month ++ (day ++ rest))) 6 =
      some (time.date.day : Int) ↔ Field day time.date.day := by
    have place : (year ++ month).length = 6 := by rw [List.length_append, fourLong, monthLong]
    rw [twoDigits_append (year ++ month) day rest (by simp) place dayLong]
    exact read_eq_some_iff_field dayLong (by omega) (by omega)
  rw [List.take_left' fourLong, Digits.readNat_eq_some, readsMonth, readsDay]
  constructor
  · intro reads
    obtain ⟨isYear, isMonth, isDay⟩ := reads
    refine ⟨year ++ (month ++ day), rest, by simp only [List.append_assoc], ?_⟩
    exact .intro ⟨fourLong, isYear⟩ (isMonth.figures bounds.2.2.1) (isDay.figures bounds.2.2.2.2.1)
  · intro spelled
    obtain ⟨date, others, same, spells⟩ := spelled
    generalize isDate : time.date = named at spells
    cases spells with
    | @intro otherYear otherMonth otherDay _ isYear isMonth isDay =>
        subst isDate
        simp only [List.append_assoc] at same
        obtain ⟨rfl, behind⟩ := List.append_inj same (fourLong.trans isYear.length.symm)
        obtain ⟨rfl, last⟩ := List.append_inj behind (monthLong.trans isMonth.length.symm)
        obtain ⟨rfl, _⟩ := List.append_inj last (dayLong.trans isDay.length.symm)
        exact ⟨isYear.spells, .digits isMonth, .digits isDay⟩

theorem timeOfDay_clock {date clock : List Char} (eight : date.length = 8) (six : clock.length = 6) :
    timeOfDay (date ++ 'T' :: clock) =
        some ((time.hour : Int), (time.minute : Int), (time.second : Int)) ↔
      SpellsClock Field clock time := by
  have hourBound := time.hour_lt
  have minuteBound := time.minute_lt
  have secondBound := time.second_lt
  obtain ⟨hour, behindHour, rfl, hourLong⟩ := @exists_append_of_le _ clock 2 (by omega)
  rw [List.length_append] at six
  obtain ⟨minute, second, rfl, minuteLong⟩ := @exists_append_of_le _ behindHour 2 (by omega)
  rw [List.length_append] at six
  have secondLong : second.length = 2 := by omega
  rw [timeOfDay_append eight hourLong minuteLong secondLong]
  simp only [Option.bind_eq_bind, Option.bind_eq_some_iff, Option.pure_def, Option.some.injEq,
    Prod.mk.injEq]
  constructor
  · intro reads
    obtain ⟨_, isHour, _, isMinute, _, isSecond, rfl, rfl, rfl⟩ := reads
    exact .intro ((read_eq_some_iff_field hourLong (by omega) (by omega)).1 isHour)
      ((read_eq_some_iff_field minuteLong (by omega) (by omega)).1 isMinute)
      ((read_eq_some_iff_field secondLong (by omega) (by omega)).1 isSecond)
  · intro shows
    generalize isClock : hour ++ (minute ++ second) = clock at shows
    cases shows with
    | @intro otherHour otherMinute otherSecond _ isHour isMinute isSecond =>
        obtain ⟨rfl, behind⟩ := List.append_inj isClock (hourLong.trans isHour.length.symm)
        obtain ⟨rfl, rfl⟩ := List.append_inj behind (minuteLong.trans isMinute.length.symm)
        exact ⟨_, (read_eq_some_iff_field hourLong (by omega) (by omega)).2 isHour, _,
          (read_eq_some_iff_field minuteLong (by omega) (by omega)).2 isMinute, _,
          (read_eq_some_iff_field secondLong (by omega) (by omega)).2 isSecond, rfl, rfl, rfl⟩

/-- A time of day is read only of eight characters or of fifteen with the letter in their middle. -/
theorem length_of_timeOfDay {clock : Int × Int × Int} (reads : timeOfDay chars = some clock) :
    chars.length = 8 ∨ ∃ date rest, chars = date ++ 'T' :: rest ∧ date.length = 8 ∧ rest.length = 6 := by
  unfold timeOfDay at reads
  split at reads
  · next eight => exact .inl eight
  · split at reads
    · next fifteen =>
        obtain ⟨date, rest, rfl, eight⟩ := @exists_append_of_le _ chars 8 (by omega)
        obtain ⟨long, mark⟩ := fifteen
        rw [List.getElem?_append_right (Nat.le_of_eq eight), eight] at mark
        cases rest with
        | nil => cases mark
        | cons c rest =>
            cases mark
            rw [List.length_append, List.length_cons] at long
            exact .inr ⟨date, rest, rfl, eight, by omega⟩
    · cases reads

theorem microOfDay_eq_zero_iff :
    time.microOfDay = 0 ↔
      (time.hour = 0 ∧ time.minute = 0 ∧ time.second = 0) ∧ time.microsecond = 0 := by
  simp only [WallTime.microOfDay, WallTime.hour, WallTime.minute, WallTime.second,
    WallTime.secondOfDay, WallTime.seconds, WallTime.microsecond, microsPerDay, microsPerSecond]
  omega

/-- Characters are read as a time exactly if they spell it. -/
theorem exists_parts_iff_spellsTime :
    (∃ parts, parts? chars = some parts ∧ parts.wallTime = .ok time) ↔ SpellsTime Field chars time := by
  constructor
  · intro made
    obtain ⟨parts, reads, made⟩ := made
    obtain ⟨rfl, whole⟩ := WallTime.wallTime_eq_ok.1 made
    obtain ⟨clock, readsDate⟩ := parts?_eq_some_parts.1 reads
    rcases length_of_timeOfDay clock with eight | ⟨date, rest, rfl, eight, six⟩
    · obtain ⟨date, rest, rfl, spells⟩ := (readsDate_iff (Nat.le_of_eq eight.symm)).1 readsDate
      have noRest : rest = [] := by
        rw [List.length_append, spells.length] at eight
        exact List.length_eq_zero_iff.1 (by omega)
      subst noRest
      rw [timeOfDay, if_pos eight, Option.some.injEq, Prod.mk.injEq, Prod.mk.injEq] at clock
      rw [List.append_nil]
      exact .day spells (microOfDay_eq_zero_iff.2 ⟨by omega, whole⟩)
    · have long : 8 ≤ (date ++ 'T' :: rest).length := by
        rw [List.length_append]
        omega
      obtain ⟨front, back, same, spells⟩ := (readsDate_iff long).1 readsDate
      obtain ⟨rfl, _⟩ := List.append_inj same (eight.trans spells.length.symm)
      exact .second spells ((timeOfDay_clock eight six).1 clock) whole
  · intro spelled
    cases spelled with
    | day spells midnight =>
        obtain ⟨⟨hour, minute, second⟩, whole⟩ := microOfDay_eq_zero_iff.1 midnight
        have clock : timeOfDay chars =
            some ((time.hour : Int), (time.minute : Int), (time.second : Int)) := by
          rw [timeOfDay, if_pos spells.length, hour, minute, second]
          rfl
        have readsDate := (readsDate_iff (Nat.le_of_eq spells.length.symm)).2
          ⟨chars, [], (List.append_nil chars).symm, spells⟩
        exact ⟨time.parts, parts?_eq_some_parts.2 ⟨clock, readsDate⟩, WallTime.wallTime_parts whole⟩
    | @second date clock _ spells shows whole =>
        have long : 8 ≤ (date ++ 'T' :: clock).length := by
          rw [List.length_append, spells.length]
          omega
        have readsDate := (readsDate_iff long).2 ⟨date, 'T' :: clock, rfl, spells⟩
        have readsClock := (timeOfDay_clock spells.length shows.length).2 shows
        exact ⟨time.parts, parts?_eq_some_parts.2 ⟨readsClock, readsDate⟩,
          WallTime.wallTime_parts whole⟩

theorem SpellsDate.namesZone {date : CivilDate} (spells : SpellsDate chars date) (tail : List Char) :
    namesZone (chars ++ tail) = false := by
  cases spells with
  | @intro year month day _ isYear isMonth isDay =>
      cases year with
      | nil => cases isYear.length
      | cons c rest => exact namesZone_of_isDigit isYear.spells.head_isDigit _

theorem SpellsDate.isDigit {date : CivilDate} (spells : SpellsDate chars date) :
    ∀ c ∈ chars, Digits.isDigit c = true := by
  cases spells with
  | intro isYear isMonth isDay =>
      exact List.forall_mem_append.2 ⟨isYear.spells.areDigits,
        List.forall_mem_append.2 ⟨isMonth.spells.areDigits, isDay.spells.areDigits⟩⟩

theorem SpellsClock.isDigit (shows : SpellsClock (Figures 2) chars time) :
    ∀ c ∈ chars, Digits.isDigit c = true := by
  cases shows with
  | intro isHour isMinute isSecond =>
      exact List.forall_mem_append.2 ⟨isHour.spells.areDigits,
        List.forall_mem_append.2 ⟨isMinute.spells.areDigits, isSecond.spells.areDigits⟩⟩

section Fields

variable {field other : List Char → Nat → Prop}
  (weaker : ∀ chars n, chars <:+: value → field chars n → other chars n)

include weaker

theorem SpellsClock.imp {clock : List Char} (shows : SpellsClock field clock time)
    (inside : clock <:+: value) : SpellsClock other clock time := by
  cases shows with
  | @intro hour minute second _ isHour isMinute isSecond =>
      have behind := (List.suffix_append hour (minute ++ second)).isInfix.trans inside
      exact .intro (weaker _ _ ((List.prefix_append _ _).isInfix.trans inside) isHour)
        (weaker _ _ ((List.prefix_append _ _).isInfix.trans behind) isMinute)
        (weaker _ _ ((List.suffix_append _ _).isInfix.trans behind) isSecond)

theorem SpellsTime.imp {date : List Char} (spells : SpellsTime field date time) (inside : date <:+: value) :
    SpellsTime other date time := by
  cases spells with
  | day spells midnight => exact .day spells midnight
  | @second date clock _ spells shows whole =>
      have behind := (List.suffix_append (date ++ ['T']) clock).isInfix
      rw [List.append_assoc, List.singleton_append] at behind
      exact .second spells (shows.imp weaker (behind.trans inside)) whole

end Fields

variable [Zone.Directory] {date : List Char} {calendar : Calendar} {zone : Zone}

theorem SpellsTime.zoned (spells : SpellsTime Field value time) : zoned value = .ok (none, value) := by
  cases spells with
  | day spells midnight =>
      have unnamed := spells.namesZone []
      rw [List.append_nil] at unnamed
      refine zoned_plain unnamed ?_
      rw [spells.length]
      decide
  | second spells shows whole =>
      refine zoned_plain (spells.namesZone _) ?_
      rw [spells.length_clock shows]
      decide

/-- The three ways in which a value is assigned to a zone. -/
theorem zoned_cases {named : Option Zone} (cut : zoned value = .ok (named, date)) :
    (named = none ∧ value = date) ∨
      (named = some .utc ∧ value = date ++ ['Z'] ∧ date.length = 15) ∨
      ∃ name zone, named = some zone ∧ Zone.resolve? name = some zone ∧
        value = "TZID=".toList ++ name.toList ++ ':' :: date := by
  unfold zoned at cut
  split at cut
  · next isNamed =>
      obtain ⟨rest, rfl⟩ := List.isPrefixOf_iff_prefix.1 isNamed
      rw [cutAt?_append (by decide)] at cut
      cases halves : cutAt? ':' rest with
      | none =>
          rw [halves] at cut
          cases cut
      | some parts =>
          have five : "TZID=".toList.length = 5 := rfl
          rw [halves, Option.map_some] at cut
          simp only [List.drop_left' five] at cut
          split at cut
          · cases cut
          · next zone resolved =>
              cases cut
              refine .inr (.inr ⟨_, zone, rfl, resolved, ?_⟩)
              rw [@String.toList_ofList parts.1, List.append_assoc, ← (cutAt?_eq_some.1 halves).1]
  · split at cut
    · next marked =>
        cases cut
        obtain ⟨_, length, last⟩ := isUtc_iff.1 marked
        obtain ⟨front, rfl⟩ := List.getLast?_eq_some_iff.1 last
        rw [List.length_append, List.length_singleton] at length
        rw [List.dropLast_concat]
        exact .inr (.inl ⟨rfl, rfl, by omega⟩)
    · cases cut
      exact .inl ⟨rfl, rfl⟩

/-- A value names a time in a zone exactly if it has one of the shapes. -/
theorem names_iff_shape :
    Names calendar value zone time ↔ Shape Field calendar value zone time := by
  constructor
  · intro names
    obtain ⟨named, date, parts, cut, reads, made, rfl⟩ := names
    have spells := exists_parts_iff_spellsTime.1 ⟨parts, reads, made⟩
    rcases zoned_cases cut with ⟨rfl, rfl⟩ | ⟨rfl, rfl, fifteen⟩ | ⟨name, zone, rfl, resolved, rfl⟩
    · exact .own spells
    · cases spells with
      | day spells midnight =>
          rw [spells.length] at fifteen
          contradiction
      | second spells shows whole => exact .utc spells shows whole
    · exact .named resolved spells
  · intro shape
    cases shape with
    | own spells =>
        obtain ⟨parts, reads, made⟩ := exists_parts_iff_spellsTime.2 spells
        exact ⟨none, value, parts, spells.zoned, reads, made, rfl⟩
    | @utc date clock _ spells shows whole =>
        obtain ⟨parts, reads, made⟩ := exists_parts_iff_spellsTime.2 (.second spells shows whole)
        have unnamed := spells.namesZone ('T' :: clock ++ ['Z'])
        rw [← List.append_assoc] at unnamed
        exact ⟨_, _, parts, zoned_utc unnamed (spells.length_clock shows), reads, made, rfl⟩
    | named resolved spells =>
        obtain ⟨parts, reads, made⟩ := exists_parts_iff_spellsTime.2 spells
        exact ⟨_, _, parts, zoned_named resolved _, reads, made, rfl⟩

/-- A shape stays one when its fields are fields of the other kind too. -/
theorem Shape.imp {field other : List Char → Nat → Prop}
    (weaker : ∀ chars n, chars <:+: value → field chars n → other chars n)
    (shape : Shape field calendar value zone time) : Shape other calendar value zone time := by
  cases shape with
  | own spells => exact .own (spells.imp weaker List.infix_rfl)
  | @utc date clock _ spells shows whole =>
      have behind := (List.suffix_append (date ++ ['T']) clock).isInfix
      rw [List.append_assoc, List.singleton_append] at behind
      exact .utc spells (shows.imp weaker (behind.trans (List.prefix_append _ _).isInfix)) whole
  | @named name zone date _ resolved spells =>
      have behind := (List.suffix_append ("TZID=".toList ++ name.toList ++ [':']) date).isInfix
      rw [List.append_assoc, List.singleton_append] at behind
      exact .named resolved (spells.imp weaker behind)

theorem Shape.whole {field : List Char → Nat → Prop}
    (shape : Shape field calendar value zone time) : time.microsecond = 0 := by
  have inTime {chars : List Char} (spells : SpellsTime field chars time) : time.microsecond = 0 := by
    cases spells with
    | day spells midnight => exact (microOfDay_eq_zero_iff.1 midnight).2
    | second spells shows whole => exact whole
  cases shape with
  | own spells => exact inTime spells
  | utc spells shows whole => exact whole
  | named resolved spells => exact inTime spells

/-- Where no minus stands before a zero, all fields are digits. -/
theorem shape_iff_figures (noMinus : ¬['-', '0'] <:+: value) :
    Shape Field calendar value zone time ↔ Shape (Figures 2) calendar value zone time := by
  refine ⟨Shape.imp fun chars n inside isField => ?_, Shape.imp fun chars n _ => .digits⟩
  cases isField with
  | digits figures => exact figures
  | minusZero => exact absurd inside noMinus

/-- A value of digits that names no zone has no sign. -/
theorem Shape.noMinus (shape : Shape (Figures 2) calendar value zone time)
    (unnamed : namesZone value = false) : '-' ∉ value := by
  have notDigit : Digits.isDigit '-' = false := by decide
  have inDate {chars : List Char} {date : CivilDate} (spells : SpellsDate chars date) : '-' ∉ chars :=
    fun member => Bool.false_ne_true (notDigit.symm.trans (spells.isDigit '-' member))
  have inClock {chars : List Char} (shows : SpellsClock (Figures 2) chars time) : '-' ∉ chars :=
    fun member => Bool.false_ne_true (notDigit.symm.trans (shows.isDigit '-' member))
  cases shape with
  | own spells =>
      cases spells with
      | day spells midnight => exact inDate spells
      | second spells shows whole => simp [inDate spells, inClock shows]
  | utc spells shows whole => simp [inDate spells, inClock shows]
  | named resolved spells =>
      rw [List.append_assoc, Until.namesZone, Bool.eq_false_iff, Ne, List.isPrefixOf_iff_prefix] at unnamed
      exact absurd (List.prefix_append _ _) unnamed

end Until

namespace RuleText

open Until (Shape Field)
open Digits (Figures)

variable {value : List Char}

/-- The text of a daily rule with a last date. -/
def dailyText (value : List Char) : String := String.ofList ("FREQ=DAILY;UNTIL=".toList ++ value)

theorem toList_dailyText (value : List Char) :
    (dailyText value).toList = "FREQ=DAILY;UNTIL=".toList ++ value :=
  String.toList_ofList

theorem pieces_dailyText (noSemicolon : ';' ∉ value) (start : Nat) :
    pieces start (dailyText value).toList =
      locate start (writtenPieces .daily [(.lastDate, value)]) := by
  have absent : ∀ entry ∈ [(Key.lastDate, value)], ';' ∉ entry.2 :=
    List.forall_mem_singleton.2 noSemicolon
  have line : "FREQ=DAILY;UNTIL=".toList ++ value =
      join ';' (writtenPieces .daily [(.lastDate, value)]) := by
    simp only [writtenPieces, List.map, written, assigned, join]
    rfl
  have filled : writtenPieces .daily [(.lastDate, value)] ≠ [] := List.cons_ne_nil _ _
  rw [toList_dailyText]
  exact pieces_closed filled (noSemicolon_writtenPieces absent) writtenPieces_filled (.inl line) start

/-- A value without semicolons and line breaks. -/
def IsValue (value : List Char) : Prop := ∀ c ∈ value, c ≠ ';' ∧ isLineBreak c = false

theorem oneLine_dailyText (isValue : IsValue value) :
    ∀ c ∈ (dailyText value).toList, isLineBreak c = false := by
  rw [toList_dailyText]
  exact List.forall_mem_append.2
    ⟨oneLine_of_all (by decide), fun c member => (isValue c member).2⟩

theorem truncate_of_localize {zone : Zone} {time : WallTime} {date : Moment}
    (whole : time.microsecond = 0) (localized : zone.localize time = some date) :
    date.truncate = date := by
  rw [← Zone.wall_of_localize localized] at whole
  rw [Moment.truncate, WallTime.truncate_of_microsecond whole]

theorem isValue_of_all (plain : (value.all fun c => c != ';' && !isLineBreak c) = true) :
    IsValue value := by
  intro c member
  simpa using List.all_eq_true.1 plain c member

variable [Zone.Directory] {calendar : Calendar}

theorem assign_lastDate_daily (assigned : Assignment) :
    assign calendar { frequency := .daily } .lastDate assigned =
      (readLastDate calendar assigned).map fun date =>
        { frequency := .daily, ending := .afterDate date.truncate } := by
  have endless : checkEnding { frequency := .daily } assigned.key assigned.value.start = .ok () :=
    checkEnding_eq_ok.2 rfl
  simp only [assign, endless, mapError_ok, bind, Except.bind, pure, Except.pure]
  cases readLastDate calendar assigned <;> rfl

/-- A text of a daily rule with a last date is read as far as the date is. -/
theorem readAt_dailyText (noSemicolon : ';' ∉ value) {answer : Except Stop Rule}
    (noFault : ∀ finding, answer ≠ .error (.fault finding)) :
    readAt calendar 0 (dailyText value).toList = answer ↔
      (readLastDate calendar ⟨11, "UNTIL", ⟨17, value⟩⟩).map (fun date =>
        { frequency := .daily, ending := .afterDate date.truncate }) = answer := by
  have long : 0 + (assigned "FREQ" Frequency.daily.name.toList).length + 1 = 11 := by decide
  have later : readLater calendar ["FREQ"] { frequency := .daily }
      (locate 11 [written (.lastDate, value)]) =
        (readLastDate calendar ⟨11, "UNTIL", ⟨17, value⟩⟩).map fun date =>
          { frequency := .daily, ending := .afterDate date.truncate } := by
    rw [readLater_written (by decide), ← assign_lastDate_daily]
    exact bind_pure _
  rw [readAt_eq_iff answer (pieces_dailyText noSemicolon 0) noFault, ← later]
  constructor
  · intro reads
    obtain ⟨frequency, same, reads⟩ := reads
    cases frequency with
    | daily =>
        rw [long] at reads
        exact reads
    | _ => exact absurd same (by decide)
  · intro reads
    refine ⟨.daily, rfl, ?_⟩
    rw [long]
    exact reads

/-- Reading accepts a last date exactly in the shapes whose times of day have the given fields, and
takes over the time that is spelled, in the zone that the shape says. -/
def AcceptsShapes (field : List Char → Nat → Prop) (calendar : Calendar) (value : List Char) : Prop :=
  ∀ found, readPartial calendar (dailyText value) 0 none = .ok found ↔
    ∃ zone time date, Shape field calendar value zone time ∧ zone.localize time = some date ∧
      found = ((dailyText value).toList.length,
        { frequency := .daily, ending := .afterDate date })

theorem acceptsShapes_field (isValue : IsValue value) : AcceptsShapes Field calendar value := by
  intro found
  have noSemicolon : ';' ∉ value := fun member => (isValue ';' member).1 rfl
  have reads (rule : Rule) := @readAt_dailyText value _ calendar noSemicolon (.ok rule) fun _ => nofun
  rw [readPartial_eq, window_eq_self (oneLine_dailyText isValue), mapError_eq_ok, map_eq_ok]
  simp only [reads, map_eq_ok, readLastDate_eq_ok, Until.read_eq_ok_iff, Until.names_iff_shape,
    Nat.zero_add]
  constructor
  · intro accepted
    obtain ⟨rule, ⟨date, ⟨zone, time, shape, localized⟩, rfl⟩, rfl⟩ := accepted
    rw [truncate_of_localize shape.whole localized]
    exact ⟨zone, time, date, shape, localized, rfl⟩
  · intro accepted
    obtain ⟨zone, time, date, shape, localized, rfl⟩ := accepted
    refine ⟨_, ⟨date, ⟨zone, time, shape, localized⟩, rfl⟩, ?_⟩
    rw [truncate_of_localize shape.whole localized]

theorem outOfRange_dailyText_iff (isValue : IsValue value) :
    readPartial calendar (dailyText value) 0 none = .error .outOfRange ↔
      ∃ zone time, Shape Field calendar value zone time ∧ zone.localize time = none := by
  have noSemicolon : ';' ∉ value := fun member => (isValue ';' member).1 rfl
  have reads := @readAt_dailyText value _ calendar noSemicolon (.error .outOfRange) fun _ => nofun
  have dated := @readLastDate_eq_outOfRange _ calendar ⟨11, "UNTIL", ⟨17, value⟩⟩
  rw [readPartial_eq_outOfRange (oneLine_dailyText isValue), reads, map_eq_error, dated,
    Until.read_eq_ok_iff]
  simp only [Until.names_iff_shape]

/-- A last date is accepted in the documented shapes and in those where a minus stands before a zero of
the time of day. -/
theorem acceptsShapes (calendar : Calendar) {value : List Char} (isValue : IsValue value) :
    AcceptsShapes Field calendar value ∧
      (¬['-', '0'] <:+: value → AcceptsShapes (Figures 2) calendar value) ∧
      (readPartial calendar (dailyText value) 0 none = .error .outOfRange ↔
        ∃ zone time, Shape Field calendar value zone time ∧ zone.localize time = none) := by
  refine ⟨acceptsShapes_field isValue, fun noMinus => ?_, outOfRange_dailyText_iff isValue⟩
  have accepts := @acceptsShapes_field value _ calendar isValue
  simp only [AcceptsShapes, Until.shape_iff_figures noMinus] at accepts
  exact accepts

end RuleText

namespace RuleText

open Until (Shape Field)
open Digits (Figures)

attribute [local instance] Zone.table

/-- The second in UTC that the value `20250118T102600Z` spells. -/
def utcMorning : Moment := ⟨⟨63872792760000000, by decide⟩, 0, .utc⟩

def utcMorningChars : List Char := "20250118T102600Z".toList

theorem accepts_utcMorning :
    IsValue utcMorningChars ∧ ¬['-', '0'] <:+: utcMorningChars ∧
      ∃ zone time, Shape (Figures 2) {} utcMorningChars zone time ∧
        zone.localize time = some utcMorning := by
  have isValue : IsValue utcMorningChars := isValue_of_all (by decide)
  have noMinus : ¬['-', '0'] <:+: utcMorningChars := fun inside =>
    absurd (inside.subset List.mem_cons_self) (by decide)
  have reads : readPartial {} (dailyText utcMorningChars) 0 none =
      .ok (33, { frequency := .daily, ending := .afterDate utcMorning }) := by
    rw [readPartial_eq]
    decide +kernel
  obtain ⟨zone, time, date, shape, localized, same⟩ :=
    ((acceptsShapes {} isValue).2.1 noMinus _).1 reads
  have ends : utcMorning = date :=
    Ending.afterDate.inj (congrArg (fun found => found.2.ending) same)
  rw [← ends] at localized
  exact ⟨isValue, noMinus, zone, time, shape, localized⟩

/-- A value whose hour is a zero behind a minus. -/
def minusHourChars : List Char := "20250118T-03000".toList

/-- What it is read as. -/
def minusHour : Moment := ⟨⟨63872757000000000, by decide⟩, 0, .utc⟩

theorem not_forall_acceptsShapes_figures :
    ¬∀ calendar value, IsValue value → AcceptsShapes (Figures 2) calendar value := by
  intro all
  have isValue : IsValue minusHourChars := isValue_of_all (by decide)
  have reads : readPartial {} (dailyText minusHourChars) 0 none =
      .ok (32, { frequency := .daily, ending := .afterDate minusHour }) := by
    rw [readPartial_eq]
    decide +kernel
  obtain ⟨zone, time, date, shape, _, _⟩ := (all {} minusHourChars isValue _).1 reads
  exact shape.noMinus (by decide) (by decide)

end RuleText

end Recurrence
