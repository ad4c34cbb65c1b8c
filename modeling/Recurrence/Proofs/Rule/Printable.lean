import Recurrence.Proofs.Rule.Arrangement
import Recurrence.Proofs.Rule.DateShape

namespace Recurrence

/-! The characters of a text that is read as a rule.

Keys, numbers, weekdays, dates and names of zones are spelled in plain characters alone, so a text that
spells a rule is printable ASCII (`RuleText.Spells.printable`).  The check of the characters that a whole
text has to pass first therefore refuses no line that is a rule: `RuleText.readText_eq_ok_iff`.
-/

open RuleText (Plain isPlain plain_iff plain_append plain_cons plain_of_simple)

section Numbers

variable {chars : List Char} {n : Nat} {value : Int}

theorem Digits.Spells.plain (spells : Spells chars n) : Plain chars :=
  plain_of_simple (RuleText.simple_iff.mpr fun c member =>
    RuleText.isSimple_of_isDigit (spells.areDigits c member))

theorem Digits.SpellsInt.isPlain (spells : SpellsInt chars value) : Plain chars := by
  cases spells with
  | plain spells => exact spells.plain
  | minus spells => exact plain_cons.mpr ⟨rfl, spells.plain⟩

theorem Digits.SpellsOrdinal.plain (spells : SpellsOrdinal chars value) : Plain chars := by
  cases spells with
  | signed spells => exact spells.isPlain
  | plus spells => exact plain_cons.mpr ⟨rfl, spells.plain⟩

theorem DayEntry.Spelled.plain {entry : DayEntry} (spelled : Spelled chars entry) : Plain chars := by
  have code (weekday : Weekday) : Plain weekday.code.toList := by cases weekday <;> decide
  cases spelled with
  | every weekday => exact code weekday
  | nth spells inside weekday => exact plain_append.mpr ⟨spells.plain, code weekday⟩

end Numbers

namespace Until

variable {chars : List Char} {time : WallTime} {n : Nat}

theorem Field.plain (isField : Field chars n) : Plain chars := by
  cases isField with
  | digits figures => exact figures.spells.plain
  | minusZero => rfl

theorem SpellsDate.plain {date : CivilDate} (spells : SpellsDate chars date) : Plain chars := by
  cases spells with
  | intro isYear isMonth isDay =>
      simp only [plain_append, isYear.spells.plain, isMonth.spells.plain, isDay.spells.plain, and_self]

theorem SpellsClock.plain (shows : SpellsClock Field chars time) : Plain chars := by
  cases shows with
  | intro isHour isMinute isSecond =>
      simp only [plain_append, isHour.plain, isMinute.plain, isSecond.plain, and_self]

theorem SpellsTime.plain (spells : SpellsTime Field chars time) : Plain chars := by
  cases spells with
  | day spells midnight => exact spells.plain
  | second spells shows whole =>
      exact plain_append.mpr ⟨spells.plain, plain_cons.mpr ⟨rfl, shows.plain⟩⟩

variable [Zone.Directory] {calendar : Calendar} {zone : Zone}

/-- The value of a last date is plain, a name of a zone in it included. -/
theorem Shape.plain (shape : Shape Field calendar chars zone time) : Plain chars := by
  cases shape with
  | own spells => exact spells.plain
  | utc spells shows whole =>
      simp only [plain_append, plain_cons, spells.plain, shows.plain, true_and, and_true]
      decide
  | @named name zone date _ resolved spells =>
      have plainName : Plain name.toList := plain_iff.mpr fun c member =>
        RuleText.isPlain_of_isNameChar (Zone.isNameChar_of_resolve? resolved c member)
      simp only [plain_append, plain_cons, plainName, spells.plain, and_true]
      decide

theorem plain_of_read {date : Option Moment} (reads : read calendar chars = .ok date) :
    Plain chars := by
  obtain ⟨zone, time, names, _⟩ := read_eq_ok_iff.mp reads
  exact (names_iff_shape.mp names).plain

end Until

namespace RuleText

theorem SpellsList.plain {α : Type} {spells : List Char → α → Prop} {chars : List Char}
    {values : List α} (spelled : SpellsList spells chars values)
    (each : ∀ chars value, spells chars value → Plain chars) : Plain chars := by
  obtain ⟨_, pieces, rfl, pairs⟩ := spelled
  refine plain_join rfl fun piece member => ?_
  obtain ⟨n, bound, rfl⟩ := List.mem_iff_getElem.mp member
  exact each _ _ (pairs.get bound (pairs.length_eq ▸ bound))

variable [Zone.Directory] {calendar : Calendar} {rule : Rule} {entries : List (Key × List Char)}

/-- The value of an assignment that says something of a rule is plain. -/
theorem States.plain {key : Key} {value : List Char} (stated : States calendar rule key value) :
    Plain value := by
  cases key with
  | lastDate =>
      obtain ⟨date, reads, _⟩ := stated
      exact Until.plain_of_read reads
  | count =>
      obtain ⟨n, spells, _⟩ := stated
      exact spells.plain
  | interval =>
      obtain ⟨n, spells, _⟩ := stated
      exact spells.plain
  | restriction part =>
      cases part with
      | weekday => exact SpellsList.plain stated fun _ _ => DayEntry.Spelled.plain
      | _ => exact SpellsList.plain stated fun _ _ spells => spells.1.isPlain

theorem Spells.printable {text : List Char} (spells : Spells calendar text entries rule) :
    ∀ c ∈ text, RuleGuard.isAscii c = true ∧ RuleGuard.isControl c = false := by
  have plain := @plain_writtenPieces rule.frequency entries fun entry member =>
    (spells.assigns.states entry member).plain
  have inText : ∀ c ∈ text, 32 ≤ c.toNat ∧ c.toNat < 127 := by
    rcases spells.closes with rfl | rfl
    · exact printable_join plain
    · exact List.forall_mem_append.mpr ⟨printable_join plain, List.forall_mem_singleton.mpr (by decide)⟩
  intro c member
  obtain ⟨least, greatest⟩ := inText c member
  simp only [RuleGuard.isAscii, RuleGuard.isControl, decide_eq_true_eq, Bool.or_eq_false_iff,
    decide_eq_false_iff_not]
  omega

/-- The checks before reading ask nothing of a rule text but that it is not too long. -/
theorem Spells.check_iff {text : String} {limit : Int}
    (spells : Spells calendar text.toList entries rule) :
    RuleGuard.checkText text limit = .ok text ↔ (text.toList.length : Int) ≤ limit := by
  have filled : text.toList ≠ [] := by
    rcases spells.closes with same | same
    · exact same ▸ join_writtenPieces_ne_nil
    · exact same ▸ List.concat_ne_nil _ _
  rw [RuleGuard.checkText_eq_ok_iff]
  exact ⟨fun passed => passed.2.1, fun fits => ⟨filled, fits, spells.printable⟩⟩

/-- A line is read as a whole text exactly if it is not too long and is read as a part of a larger text,
as the same rule and to its end.  Its characters are those that the checks let pass. -/
theorem readText_eq_ok_iff (calendar : Calendar) (limit : Int) {text : String}
    (oneLine : ∀ c ∈ text.toList, isLineBreak c = false) :
    (∀ rule, readText calendar limit text = .ok rule ↔
      (text.toList.length : Int) ≤ limit ∧
        readPartial calendar text 0 none = .ok (text.toList.length, rule)) ∧
    ∀ index rule, readPartial calendar text 0 none = .ok (index, rule) →
      index = text.toList.length ∧ RuleGuard.charFault? text = none := by
  have accepted := @readPartial_eq_ok_iff_spells _ calendar text oneLine
  refine ⟨fun rule => ⟨fun reads => ?_, fun reads => ?_⟩, fun index rule reads => ?_⟩
  · rw [readText, bind_eq_ok] at reads
    obtain ⟨checked, passes, reads⟩ := reads
    obtain ⟨rfl, _⟩ := RuleGuard.checkText_eq_ok passes
    obtain ⟨⟨index, found⟩, isRead, rfl⟩ := map_eq_ok.mp reads
    obtain ⟨rfl, entries, spells⟩ := (accepted index found).mp isRead
    exact ⟨spells.check_iff.mp passes, isRead⟩
  · obtain ⟨fits, isRead⟩ := reads
    obtain ⟨_, entries, spells⟩ := (accepted _ rule).mp isRead
    rw [readText, spells.check_iff.mpr fits]
    exact map_eq_ok.mpr ⟨_, isRead, rfl⟩
  · obtain ⟨same, entries, spells⟩ := (accepted index rule).mp reads
    exact ⟨same, RuleGuard.charFault?_eq_none.mpr spells.printable⟩

/-- A line with a zone that is named in small letters and by a word for its sign. -/
def zonedLine : String :=
  "FREQ=MONTHLY;INTERVAL=007;BYDAY=+2MO,SU;UNTIL=TZID=etc/gmt_plus_5:20250118T-03000;"

end RuleText

namespace RuleText

attribute [local instance] Zone.table

theorem readText_zonedLine :
    (∀ c ∈ zonedLine.toList, isLineBreak c = false) ∧ RuleGuard.charFault? zonedLine = none ∧
      ∃ rule, readText {} 82 zonedLine = .ok rule ∧
        readPartial {} zonedLine 0 none = .ok (82, rule) ∧
        readText {} 81 zonedLine ≠ .ok rule := by
  have oneLine : ∀ c ∈ zonedLine.toList, isLineBreak c = false :=
    oneLine_of_all (by decide +kernel)
  have size : zonedLine.toList.length = 82 := by decide +kernel
  have isRead : (readPartial {} zonedLine 0 none).toOption.isSome = true := by
    rw [readPartial_eq]
    decide +kernel
  cases reads : readPartial {} zonedLine 0 none with
  | error _ =>
      rw [reads] at isRead
      exact absurd isRead Bool.false_ne_true
  | ok found =>
      obtain ⟨index, rule⟩ := found
      obtain ⟨toEnd, printable⟩ := (readText_eq_ok_iff {} 82 oneLine).2 index rule reads
      obtain rfl := toEnd.trans size
      have whole := ((readText_eq_ok_iff {} 82 oneLine).1 rule).mpr ⟨by omega, size ▸ reads⟩
      refine ⟨oneLine, printable, rule, whole, rfl, fun accepted => ?_⟩
      have fits := (((readText_eq_ok_iff {} 81 oneLine).1 rule).mp accepted).1
      omega

end RuleText

end Recurrence
