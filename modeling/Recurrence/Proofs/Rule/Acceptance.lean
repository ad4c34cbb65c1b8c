import Recurrence.Proofs.Rule.Checks
import Recurrence.Proofs.Rule.RoundTrip
import Recurrence.Proofs.Rule.Runs

namespace Recurrence

/-! Which texts are rules, and of which rule.

`RuleText.Spells` is the grammar: it says what a rule text looks like and what rule it stands for.  A
line is read exactly if it spells a rule, and the rules that are spelled pass every check of their data
(`RuleText.readPartial_eq_ok_iff`).
-/

theorem Frequency.ofName?_eq_some {text : String} {frequency : Frequency} :
    ofName? text = some frequency ↔ frequency.name = text := by
  constructor
  · intro known
    exact beq_iff_eq.1 (List.find?_some known :)
  · rintro rfl
    exact ofName?_name frequency

namespace Rule

/-- What makes a rule valid in one field. -/
def ValidAt (rule : Rule) : Field → Prop
  | .ending => rule.ending.Valid
  | .interval => 1 ≤ rule.interval
  | .part part => (part = .weekday → ∀ entry ∈ rule.weekdays, entry.Valid) ∧
      ∀ value ∈ rule.numbers part, part.domain.has value = true

theorem valid_of_fields {rule : Rule} (valid : ∀ field, rule.ValidAt field) : rule.Valid :=
  ⟨valid .interval, valid .ending, (valid (.part .weekday)).1 rfl, fun part _ => (valid (.part part)).2⟩

theorem ValidAt.of_sameAt {source rule : Rule} {field : Field} (valid : source.ValidAt field)
    (same : rule.SameAt source field) : rule.ValidAt field := by
  cases field with
  | ending =>
      have ending : rule.ending = source.ending := same
      rw [ValidAt, ending]
      exact valid
  | interval =>
      have interval : rule.interval = source.interval := same
      rw [ValidAt, interval]
      exact valid
  | part part =>
      obtain ⟨numbers, weekdays⟩ := same
      refine ⟨fun isWeekday => ?_, ?_⟩
      · rw [weekdays isWeekday]
        exact valid.1 isWeekday
      · rw [numbers]
        exact valid.2

theorem validAt_default (frequency : Frequency) (field : Field) :
    ({ frequency } : Rule).ValidAt field := by
  cases field with
  | ending => trivial
  | interval => exact Int.le_refl 1
  | part part => cases part <;> exact ⟨fun _ => List.forall_mem_nil _, List.forall_mem_nil _⟩

end Rule

namespace DayEntry

theorem Spelled.valid {chars : List Char} {entry : DayEntry} (spelled : Spelled chars entry) :
    entry.Valid := by
  cases spelled with
  | every weekday => exact fun ordinal => nofun
  | nth spells inside weekday =>
      rintro ordinal ⟨⟩
      exact inside

end DayEntry

namespace RuleText

theorem forall_of_spellsList {α : Type} {spells : List Char → α → Prop} {property : α → Prop}
    {chars : List Char} {values : List α} (spelled : SpellsList spells chars values)
    (each : ∀ chars value, spells chars value → property value) :
    ∀ value ∈ values, property value := by
  obtain ⟨_, pieces, _, pairs⟩ := spelled
  clear * - pairs each
  induction pairs with
  | nil => exact List.forall_mem_nil _
  | cons first _ ih => exact List.forall_mem_cons.2 ⟨each _ _ first, ih⟩

/-- Different keys set different fields unless they are the two that set an end. -/
theorem nodup_fields_iff {entries : List (Key × List Char)} (distinct : (entries.map Prod.fst).Nodup) :
    (entries.map fun entry => entry.1.field).Nodup ↔
      ¬(Key.count ∈ entries.map Prod.fst ∧ Key.lastDate ∈ entries.map Prod.fst) := by
  have composed : (entries.map fun entry => entry.1.field) =
      (entries.map Prod.fst).map Key.field := by
    rw [List.map_map]
    rfl
  rw [composed, List.nodup_map_iff_inj_on distinct]
  constructor
  · rintro injective ⟨counts, dates⟩
    exact absurd (injective _ counts _ dates rfl) nofun
  · intro oneEnd first inFirst second inSecond same
    rcases Key.eq_or_ends same with equal | isEnd
    · exact equal
    · cases first <;> cases second <;> first
        | rfl
        | contradiction
        | exact absurd (And.intro inFirst inSecond) oneEnd
        | exact absurd (And.intro inSecond inFirst) oneEnd

theorem areNew_frequency {entries : List (Key × List Char)} :
    AreNew ["FREQ"] entries ↔ (entries.map Prod.fst).Nodup := by
  refine and_iff_left fun entry _ member => ?_
  exact entry.1.text_ne_frequency (List.mem_singleton.1 member)

theorem readFirst_eq_ok {rule : Rule} {start : Nat} {first : List Char} :
    readFirst ⟨start, first⟩ = .ok rule ↔
      ∃ frequency : Frequency, first = assigned "FREQ" frequency.name.toList ∧
        rule = { frequency } := by
  constructor
  · intro reads
    rw [readFirst, bind_eq_ok] at reads
    obtain ⟨⟨place, key, value⟩, isAssignment, reads⟩ := reads
    have parts : first = key.toList ++ '=' :: value.chars := by
      unfold assignment at isAssignment
      split at isAssignment
      · contradiction
      · next front back halves =>
          cases isAssignment
          rw [String.toList_ofList]
          exact (cutAt?_eq_some.1 halves).1
    by_cases isFrequency : key = "FREQ"
    · subst isFrequency
      rw [if_neg (not_not_intro rfl), bind_eq_ok] at reads
      obtain ⟨frequency, named, same⟩ := reads
      simp only [readFrequency] at named
      split at named
      · next known isKnown =>
          cases named
          refine ⟨frequency, ?_, (Except.ok.inj same).symm⟩
          rw [parts, assigned, Frequency.ofName?_eq_some.1 isKnown, @String.toList_ofList value.chars]
      · split at named <;> contradiction
    · rw [if_pos isFrequency] at reads
      contradiction
  · rintro ⟨frequency, rfl, rfl⟩
    exact readFirst_frequency start frequency

theorem noSemicolon_written {entry : Key × List Char} : ';' ∉ written entry ↔ ';' ∉ entry.2 := by
  have key : ';' ∉ entry.1.text.toList := by
    cases entry.1 with
    | restriction part => cases part <;> decide
    | _ => decide
  simp [written, assigned, key]

theorem noSemicolon_writtenPieces {frequency : Frequency} {entries : List (Key × List Char)}
    (values : ∀ entry ∈ entries, ';' ∉ entry.2) :
    ∀ piece ∈ writtenPieces frequency entries, ';' ∉ piece := by
  refine List.forall_mem_cons.2 ⟨?_, List.forall_mem_map.2 fun entry member => ?_⟩
  · cases frequency <;> decide
  · exact noSemicolon_written.2 (values entry member)

variable [Zone.Directory]

/-- What an assignment says is valid. -/
theorem States.validAt {calendar : Calendar} {rule : Rule} {key : Key} {value : List Char}
    (stated : States calendar rule key value) : rule.ValidAt key.field := by
  cases key with
  | lastDate =>
      obtain ⟨date, _, ends⟩ := stated
      change rule.ending.Valid
      rw [ends]
      exact WallTime.microsecond_truncate date.wall
  | count =>
      obtain ⟨n, _, positive, ends⟩ := stated
      change rule.ending.Valid
      rw [ends]
      exact Int.ofNat_le.2 positive
  | interval =>
      obtain ⟨n, _, positive, repeats⟩ := stated
      change 1 ≤ rule.interval
      rw [repeats]
      exact Int.ofNat_le.2 positive
  | restriction part =>
      cases part with
      | weekday =>
          exact ⟨fun _ => forall_of_spellsList stated fun _ _ => DayEntry.Spelled.valid,
            List.forall_mem_nil _⟩
      | _ => exact ⟨nofun, forall_of_spellsList stated fun _ _ spells => spells.2⟩

/-- The assignments of a text say what a rule is: each key comes at most once, the rule ends at most
once, and what no assignment says is as in a rule that is nothing but its frequency. -/
structure Assigns (calendar : Calendar) (entries : List (Key × List Char)) (rule : Rule) : Prop where
  distinct : (entries.map Prod.fst).Nodup
  oneEnd : ¬(Key.count ∈ entries.map Prod.fst ∧ Key.lastDate ∈ entries.map Prod.fst)
  states : ∀ entry ∈ entries, States calendar rule entry.1 entry.2
  unset : ∀ field, (∀ entry ∈ entries, entry.1.field ≠ field) →
    rule.SameAt { frequency := rule.frequency } field

/-- A text spells a rule: FREQ and the assignments, with semicolons between them and perhaps one at the
end. -/
structure Spells (calendar : Calendar) (text : List Char) (entries : List (Key × List Char))
    (rule : Rule) : Prop where
  closes : Closes text (join ';' (writtenPieces rule.frequency entries))
  noSemicolon : ∀ entry ∈ entries, ';' ∉ entry.2
  assigns : Assigns calendar entries rule

variable {calendar : Calendar} {entries : List (Key × List Char)} {rule : Rule} {text : List Char}

theorem assigns_iff :
    Assigns calendar entries rule ↔ (entries.map Prod.fst).Nodup ∧
      Understood calendar { frequency := rule.frequency } entries rule := by
  constructor
  · rintro ⟨distinct, oneEnd, states, unset⟩
    exact ⟨distinct, (understood_iff distinct).2 ⟨(nodup_fields_iff distinct).2 oneEnd,
      fun _ _ _ => rfl, rfl, states, unset⟩⟩
  · rintro ⟨distinct, understood⟩
    obtain ⟨fields, meets⟩ := (understood_iff distinct).1 understood
    exact ⟨distinct, (nodup_fields_iff distinct).1 fields, meets.stated, meets.kept⟩

theorem Assigns.valid (assigns : Assigns calendar entries rule) : rule.Valid := by
  refine Rule.valid_of_fields fun field => ?_
  by_cases isSet : ∃ entry ∈ entries, entry.1.field = field
  · obtain ⟨entry, member, rfl⟩ := isSet
    exact (assigns.states entry member).validAt
  · refine (Rule.validAt_default rule.frequency field).of_sameAt (assigns.unset field ?_)
    exact fun entry member same => isSet ⟨entry, member, same⟩

/-- A rule that is spelled is made of the data that its assignments hand over. -/
theorem Assigns.ofEntries (assigns : Assigns calendar entries rule) :
    Rule.ofEntries (rule.data (entries.map fun entry => entry.1.field)) = .good rule := by
  refine Rule.ofEntries_data assigns.valid fun field absent => assigns.unset field ?_
  exact fun entry member same => absent (List.mem_map.2 ⟨entry, member, same⟩)

/-- Whatever comes of a text that is no fault comes of its parts after FREQ. -/
theorem readAt_eq_iff {start : Nat} {first : List Char} {rest : List (List Char)}
    (answer : Except Stop Rule) (cut : pieces start text = locate start (first :: rest))
    (noFault : ∀ finding, answer ≠ .error (.fault finding)) :
    readAt calendar start text = answer ↔
      ∃ frequency : Frequency, first = assigned "FREQ" frequency.name.toList ∧
        readLater calendar ["FREQ"] { frequency } (locate (start + first.length + 1) rest) = answer := by
  by_cases empty : text = []
  · subst empty
    have isEmpty : first = [] := (Piece.mk.inj (List.cons.inj cut).1).2.symm
    constructor
    · intro faulty
      exact absurd faulty.symm (noFault _)
    · rintro ⟨frequency, same, _⟩
      rw [isEmpty] at same
      exact absurd same (List.cons_ne_nil _ _).symm
  · rw [readAt_eq_readParts empty, cut, locate, readParts]
    cases reads : readFirst ⟨start, first⟩ with
    | error finding =>
        refine ⟨fun faulty => absurd faulty.symm (noFault finding), ?_⟩
        rintro ⟨frequency, same, _⟩
        rw [readFirst_eq_ok.2 ⟨frequency, same, rfl⟩] at reads
        contradiction
    | ok rule =>
        obtain ⟨frequency, same, rfl⟩ := readFirst_eq_ok.1 reads
        refine ⟨fun later => ⟨frequency, same, later⟩, ?_⟩
        rintro ⟨other, again, later⟩
        rw [readFirst_eq_ok.2 ⟨other, again, rfl⟩] at reads
        cases reads
        exact later

/-- A text is read as a rule exactly if it spells the rule. -/
theorem readAt_eq_ok {start : Nat} :
    readAt calendar start text = .ok rule ↔ ∃ entries, Spells calendar text entries rule := by
  constructor
  · intro reads
    obtain ⟨parts, some, absent, closes, cut⟩ := exists_parts start text
    cases parts with
    | nil => exact absurd rfl some
    | cons first rest =>
        obtain ⟨frequency, rfl, later⟩ := (readAt_eq_iff (.ok rule) cut fun _ => nofun).1 reads
        obtain ⟨entries, rfl, areNew, understood⟩ := readLater_eq_ok.1 later
        have distinct := areNew_frequency.1 areNew
        have same : rule.frequency = frequency :=
          ((understood_iff distinct).1 understood).2.frequency
        subst same
        refine ⟨entries, closes, fun entry member => ?_, assigns_iff.2 ⟨distinct, understood⟩⟩
        exact noSemicolon_written.1
          (absent _ (List.mem_cons_of_mem _ (List.mem_map_of_mem member)))
  · rintro ⟨entries, closes, noSemicolon, assigns⟩
    obtain ⟨distinct, understood⟩ := assigns_iff.1 assigns
    have cut := pieces_closed (List.cons_ne_nil _ _) (noSemicolon_writtenPieces noSemicolon)
      writtenPieces_filled closes start
    refine (readAt_eq_iff (.ok rule) cut fun _ => nofun).2 ⟨rule.frequency, rfl, ?_⟩
    exact readLater_eq_ok.2 ⟨entries, rfl, areNew_frequency.2 distinct, understood⟩

theorem readPartial_eq_ok_iff_spells {text : String} (oneLine : ∀ c ∈ text.toList, isLineBreak c = false)
    (index : Nat) (rule : Rule) :
    readPartial calendar text 0 none = .ok (index, rule) ↔
      index = text.toList.length ∧ ∃ entries, Spells calendar text.toList entries rule := by
  rw [← @readAt_eq_ok _ calendar rule text.toList 0, readPartial_eq, window_eq_self oneLine, mapError_eq_ok,
    map_eq_ok]
  constructor
  · rintro ⟨read, isRead, same⟩
    cases same
    exact ⟨Nat.zero_add _, isRead⟩
  · rintro ⟨rfl, isRead⟩
    exact ⟨rule, isRead, by rw [Nat.zero_add]⟩

/-- A line is read to its end as a rule exactly if it spells the rule.  Every rule that is spelled is
valid, and the data that its assignments hand over pass every check and make that rule. -/
theorem readPartial_eq_ok_iff {text : String} (oneLine : ∀ c ∈ text.toList, isLineBreak c = false) :
    (∀ index rule, readPartial calendar text 0 none = .ok (index, rule) ↔
      index = text.toList.length ∧ ∃ entries, Spells calendar text.toList entries rule) ∧
    ∀ entries rule, Spells calendar text.toList entries rule →
      rule.Valid ∧ Rule.ofEntries (rule.data (entries.map fun entry => entry.1.field)) = .good rule :=
  ⟨readPartial_eq_ok_iff_spells oneLine, fun _ _ spells =>
    ⟨spells.assigns.valid, spells.assigns.ofEntries⟩⟩

def twiceMonday : Rule where
  frequency := .monthly
  ending := .afterCount 3
  hours := [9, 9]
  weekdays := [⟨some 2, .monday⟩, .every .sunday, ⟨some 2, .monday⟩]

/-- Its text in a form that is not the shortest. -/
def twiceMondayText : String := "FREQ=MONTHLY;BYDAY=+2MO,SU,2MO;COUNT=03;BYHOUR=9,09;"

end RuleText

namespace RuleText

attribute [local instance] Zone.table

theorem readPartial_twiceMonday :
    (∀ c ∈ twiceMondayText.toList, isLineBreak c = false) ∧
      (∃ entries, Spells {} twiceMondayText.toList entries twiceMonday ∧
        Rule.ofEntries (twiceMonday.data (entries.map fun entry => entry.1.field)) =
          .good twiceMonday) ∧
      twiceMonday.Valid := by
  have noBreak : twiceMondayText.toList.any isLineBreak = false := by decide +kernel
  have oneLine : ∀ c ∈ twiceMondayText.toList, isLineBreak c = false := fun c member =>
    Bool.eq_false_iff.2 (List.any_eq_false.1 noBreak c member)
  have reads : readPartial {} twiceMondayText 0 none = .ok (52, twiceMonday) := by
    rw [readPartial_eq]
    decide +kernel
  have accepted := @readPartial_eq_ok_iff _ {} _ oneLine
  obtain ⟨_, entries, spells⟩ := (accepted.1 52 twiceMonday).1 reads
  obtain ⟨valid, made⟩ := accepted.2 entries twiceMonday spells
  exact ⟨oneLine, ⟨entries, spells, made⟩, valid⟩

end RuleText

end Recurrence
