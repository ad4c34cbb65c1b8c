import Recurrence.ICalendar
import Recurrence.Proofs.Rule.RoundTrip
import Recurrence.Proofs.Rule.Written

namespace Recurrence

/-! The texts that a rule property keeps.

A property is read from the assignments of a text and written again key by key, in an order of its own.
A text whose keys come in this order and whose values are normal is written as it stands
(`RecurProperty.text_ofText`).  The text of a rule is such a text unless its last date names a zone.
-/

namespace RecurProperty

/-- The capitals of a text that has no small letters. -/
theorem capital_of_lt {c : Char} (small : c.toNat < 97) : Letters.capital c = [c] := by
  have noRun : Letters.runs.findSome? (fun run => run.capital? c.toNat) = none := by
    refine List.findSome?_eq_none_iff.mpr fun run member => ?_
    have later : 97 ≤ run.first :=
      (by decide +kernel : ∀ run ∈ Letters.runs, 97 ≤ run.first) run member
    exact if_neg fun inside => absurd inside.1 (by omega)
  have noExpansion : Letters.expansions.lookup c.toNat = none := by
    refine List.lookup_eq_none_iff.mpr fun entry member => ?_
    have later : 97 ≤ entry.1 :=
      (by decide +kernel : ∀ entry ∈ Letters.expansions, 97 ≤ entry.1) entry member
    have differs : c.toNat ≠ entry.1 := by omega
    exact bne_iff_ne.mpr differs
  rw [Letters.capital, noRun, noExpansion]

theorem capitals_of_simple {chars : List Char} (simple : RuleText.Simple chars) :
    chars.flatMap Letters.capital = chars := by
  induction chars with
  | nil => rfl
  | cons c rest ih =>
      obtain ⟨first, others⟩ := RuleText.simple_cons.mp simple
      have bounds := RuleText.bounds_of_isSimple first
      rw [List.flatMap_cons, ih others, capital_of_lt (by omega)]
      rfl

theorem simple_keys : ∀ key ∈ keyOrder, RuleText.Simple key.toList := by
  decide

theorem capitals_key {key : String} (listed : key ∈ keyOrder) : Letters.capitals key = key := by
  rw [Letters.capitals, capitals_of_simple (simple_keys key listed), String.ofList_toList]

/-- An assignment that a property keeps as it stands. -/
structure Kept (key : String) (value : List Char) : Prop where
  listed : key ∈ keyOrder
  noEquals : '=' ∉ value
  noSemicolon : ';' ∉ value
  normal : ∀ piece ∈ split ',' value, normalize key piece = piece

/-- The text of an assignment. -/
def spelled (entry : String × List Char) : List Char := RuleText.assigned entry.1 entry.2

/-- What a property holds of an assignment that it keeps. -/
def cut (entry : String × List Char) : String × List (List Char) := (entry.1, split ',' entry.2)

variable {entry : String × List Char} {entries : List (String × List Char)}

theorem readPiece_spelled (kept : Kept entry.1 entry.2) (property : RecurProperty) :
    property.readPiece (spelled entry) = property.insert entry.1 (split ',' entry.2) := by
  have noEquals := (simple_keys entry.1 kept.listed).not_mem (rfl : RuleText.isSimple '=' = false)
  have halves : split '=' (spelled entry) = [entry.1.toList, entry.2] := by
    rw [spelled, RuleText.assigned, split_append _ noEquals, split_of_not_mem kept.noEquals]
  have same : (split ',' entry.2).map (normalize entry.1) = split ',' entry.2 :=
    (List.map_congr_left kept.normal).trans (List.map_id _)
  rw [readPiece, halves]
  simp only [String.ofList_toList, capitals_key kept.listed, same]

/-- Assignments of new keys are added one after another. -/
theorem foldl_readPiece (kept : ∀ entry ∈ entries, Kept entry.1 entry.2)
    {before : List (String × List (List Char))}
    (distinct : (before.map Prod.fst ++ entries.map Prod.fst).Nodup) :
    (entries.map spelled).foldl readPiece ⟨before⟩ = ⟨before ++ entries.map cut⟩ := by
  induction entries generalizing before with
  | nil => simp
  | cons entry rest ih =>
      obtain ⟨first, others⟩ := List.forall_mem_cons.mp kept
      have fresh : ∀ held ∈ before, (held.1 != entry.1) = true := by
        intro held member
        have apart := (List.nodup_append.mp distinct).2.2 held.1 (List.mem_map_of_mem member) entry.1
          List.mem_cons_self
        exact bne_iff_ne.mpr apart
      have added : RecurProperty.insert ⟨before⟩ entry.1 (split ',' entry.2) =
          ⟨before ++ [cut entry]⟩ := by
        rw [insert, List.filter_eq_self.mpr fresh]
        rfl
      rw [List.map_cons, List.foldl_cons, readPiece_spelled first, added, ih others]
      · simp
      · simpa [cut] using distinct

theorem filter_contains_of_sublist {keys order : List String} (sub : keys.Sublist order)
    (distinct : order.Nodup) : order.filter keys.contains = keys := by
  induction sub with
  | slnil => rfl
  | @cons keys order key sub ih =>
      obtain ⟨absent, distinct⟩ := List.nodup_cons.mp distinct
      have notKey : keys.contains key = false := by
        rw [← Bool.not_eq_true, List.contains_iff_mem]
        exact fun member => absent (sub.subset member)
      rw [List.filter_cons, notKey, if_neg Bool.false_ne_true, ih distinct]
  | @cons_cons keys order key sub ih =>
      obtain ⟨absent, distinct⟩ := List.nodup_cons.mp distinct
      have same : order.filter (key :: keys).contains = order.filter keys.contains := by
        refine List.filter_congr fun other member => ?_
        have differs : (other == key) = false :=
          beq_eq_false_iff_ne.mpr fun isKey => absent (isKey ▸ member)
        rw [List.contains_cons, differs, Bool.false_or]
      rw [List.filter_cons, List.contains_cons, beq_self_eq_true, Bool.true_or, if_pos rfl, same,
        ih distinct]

theorem orderedKeys_of_sublist {property : RecurProperty}
    (sub : (property.assignments.map Prod.fst).Sublist keyOrder) :
    property.orderedKeys = property.assignments.map Prod.fst := by
  have distinct : keyOrder.Nodup := by decide
  have unlisted : (property.assignments.map Prod.fst).filter (fun key => !keyOrder.contains key) = [] := by
    refine List.filter_eq_nil_iff.mpr fun key member => ?_
    have listed : keyOrder.contains key = true := List.contains_iff_mem.mpr (sub.subset member)
    rw [listed]
    decide
  rw [orderedKeys, filter_contains_of_sublist sub distinct, unlisted, List.mergeSort_nil, List.append_nil]

theorem lookup_cut (distinct : (entries.map Prod.fst).Nodup) (member : entry ∈ entries) :
    (entries.map cut).lookup entry.1 = some (split ',' entry.2) := by
  induction entries with
  | nil => contradiction
  | cons first rest ih =>
      obtain ⟨absent, distinct⟩ := List.nodup_cons.mp distinct
      rw [List.map_cons, List.lookup_cons]
      rcases List.mem_cons.mp member with rfl | later
      · rw [cut, beq_self_eq_true]
      · have differs : (entry.1 == first.1) = false := beq_eq_false_iff_ne.mpr fun same =>
          absent (same ▸ List.mem_map_of_mem later)
        rw [cut, differs]
        exact ih distinct later

/-- A text is kept if its keys come in the order of a property and its values are normal. -/
theorem text_ofText (filled : entries ≠ []) (kept : ∀ entry ∈ entries, Kept entry.1 entry.2)
    (sub : (entries.map Prod.fst).Sublist keyOrder) :
    (ofText (String.ofList (join ';' (entries.map spelled)))).text =
      String.ofList (join ';' (entries.map spelled)) := by
  have distinct : (entries.map Prod.fst).Nodup := sub.nodup (by decide)
  have absent : ∀ piece ∈ entries.map spelled, ';' ∉ piece := by
    intro piece member
    obtain ⟨entry, listed, rfl⟩ := List.mem_map.mp member
    have whole := kept entry listed
    intro inside
    rcases List.mem_append.mp inside with inKey | inValue
    · exact (simple_keys entry.1 whole.listed).not_mem rfl inKey
    · rcases List.mem_cons.mp inValue with isEquals | inValue
      · exact absurd isEquals (by decide)
      · exact whole.noSemicolon inValue
  have read : ofText (String.ofList (join ';' (entries.map spelled))) = ⟨entries.map cut⟩ := by
    rw [ofText, String.toList_ofList, split_join (by simpa using filled) absent]
    exact foldl_readPiece kept distinct
  have keys : (entries.map cut).map Prod.fst = entries.map Prod.fst := by
    rw [List.map_map]
    rfl
  have ordered := @orderedKeys_of_sublist ⟨entries.map cut⟩ (by rw [keys]; exact sub)
  have pieces : (RecurProperty.mk (entries.map cut)).pieces = entries.map spelled := by
    rw [RecurProperty.pieces, ordered, keys, List.map_map]
    refine List.map_congr_left fun entry member => ?_
    change RuleText.assigned entry.1 (join ',' (((entries.map cut).lookup entry.1).getD [])) = _
    rw [lookup_cut distinct member, Option.getD_some, join_split]
    rfl
  rw [read, text, pieces]

end RecurProperty

namespace Numeral

open RuleText

theorem dropWhile_isBlank {text : List Char} (simple : Simple text) : text.dropWhile isBlank = text := by
  cases text with
  | nil => rfl
  | cons c rest =>
      have bounds := bounds_of_isSimple (simple_cons.mp simple).1
      have apart : ∀ block ∈ blankBlocks, block.2 < 45 ∨ 90 < block.1 := by decide
      have notBlank : isBlank c = false := by
        refine List.any_eq_false.mpr fun block member inside => ?_
        have within := of_decide_eq_true inside
        have outside := apart block member
        omega
      rw [List.dropWhile_cons, notBlank, if_neg Bool.false_ne_true]

theorem trim_of_simple {text : List Char} (simple : Simple text) : trim text = text := by
  have reversed : Simple text.reverse := by
    rw [simple_iff] at simple ⊢
    exact fun c member => simple c (List.mem_reverse.mp member)
  rw [trim, dropWhile_isBlank simple, dropWhile_isBlank reversed, List.reverse_reverse]

theorem ungrouped_of_simple {text : List Char} (simple : Simple text) : ungrouped text = text := by
  unfold ungrouped
  split
  · rfl
  · refine List.filter_eq_self.mpr fun c member => bne_iff_ne.mpr fun underscore => ?_
    exact simple.not_mem rfl (underscore ▸ member)

/-- A number is read as it is written. -/
theorem readSigned_ofInt (value : Int) : readSigned (Digits.ofInt value 0) = some value := by
  rw [readSigned, trim_of_simple (simple_ofInt value 0)]
  by_cases negative : value < 0
  · rw [Digits.ofInt, if_pos negative]
    simp only [ungrouped_of_simple (simple_padded _ 0), Digits.readNat_padded, Option.map_some]
    exact congrArg some (by omega)
  · rw [Digits.ofInt, if_neg negative]
    split
    · next digits same => exact absurd same (Digits.head_padded_ne_minus _ _ _)
    · next digits same => exact absurd (same ▸ List.mem_cons_self) ((simple_padded _ 0).not_mem rfl)
    · simp only [ungrouped_of_simple (simple_padded _ 0), Digits.readNat_padded, Option.map_some]
      exact congrArg some (by omega)

end Numeral

namespace RecurProperty

open RuleText

variable {frequency : Frequency} {rule : Rule} {part : Part}

theorem normalize_integer {key : String} (listed : integerKeys.contains key = true) (value : Int) :
    normalize key (Digits.ofInt value 0) = Digits.ofInt value 0 := by
  rw [normalize, if_pos listed, Numeral.readSigned_ofInt]

theorem kept_frequency (frequency : Frequency) : Kept "FREQ" frequency.name.toList := by
  have simple : Simple frequency.name.toList := by cases frequency <;> decide
  refine ⟨by decide, simple.not_mem rfl, simple.not_mem rfl, ?_⟩
  rw [split_of_not_mem (simple.not_mem rfl)]
  exact List.forall_mem_singleton.mpr (capitals_of_simple simple)

theorem kept_integer {key : String} (listed : key ∈ keyOrder) (integer : integerKeys.contains key = true)
    (value : Int) : Kept key (Digits.ofInt value 0) := by
  have simple := simple_ofInt value 0
  refine ⟨listed, simple.not_mem rfl, simple.not_mem rfl, ?_⟩
  rw [split_of_not_mem (simple.not_mem rfl)]
  exact List.forall_mem_singleton.mpr (normalize_integer integer value)

/-- A last date that names no zone is kept. -/
theorem kept_lastDate {chars : List Char} (simple : Simple chars) : Kept "UNTIL" chars where
  listed := by decide
  noEquals := simple.not_mem rfl
  noSemicolon := simple.not_mem rfl
  normal := fun _ _ => rfl

theorem normalize_element {piece : List Char} (member : piece ∈ elementTexts rule part) :
    normalize part.key piece = piece := by
  cases part with
  | weekday =>
      obtain ⟨entry, _, rfl⟩ := List.mem_map.mp member
      exact capitals_of_simple (simple_text entry)
  | _ =>
      obtain ⟨value, _, rfl⟩ := List.mem_map.mp member
      exact normalize_integer rfl value

theorem elementTexts_ne_nil (restricts : rule.restricts part = true) : elementTexts rule part ≠ [] := by
  cases part <;>
    simpa [elementTexts, Rule.restricts, Rule.numbers] using restricts

theorem kept_part (restricts : rule.restricts part = true) : Kept part.key (partValue rule part) := by
  have simple := simple_elementTexts rule part
  have elements : split ',' (partValue rule part) = elementTexts rule part := by
    rw [partValue_eq]
    exact split_join (elementTexts_ne_nil restricts) fun piece member => (simple piece member).not_mem rfl
  have absent {c : Char} (noComma : ',' ≠ c) (special : isSimple c = false) : c ∉ partValue rule part := by
    rw [partValue_eq]
    have differs : ∀ other ∈ join ',' (elementTexts rule part), other ≠ c := by
      refine forall_mem_join noComma fun piece listed other inside same => ?_
      exact (simple piece listed).not_mem special (same ▸ inside)
    exact fun member => differs c member rfl
  refine ⟨by cases part <;> decide, absent (by decide) rfl, absent (by decide) rfl, ?_⟩
  intro piece member
  rw [elements] at member
  exact normalize_element member

end RecurProperty

namespace RuleText

open RecurProperty

/-- The assignments of a rule text, each key as a text. -/
def namedEntries (frequency : Frequency) (entries : List (Key × List Char)) :
    List (String × List Char) :=
  ("FREQ", frequency.name.toList) :: entries.map fun entry => (entry.1.text, entry.2)

theorem spelled_namedEntries (frequency : Frequency) (entries : List (Key × List Char)) :
    (namedEntries frequency entries).map spelled = writtenPieces frequency entries := by
  rw [namedEntries, List.map_cons, List.map_map]
  rfl

theorem kept_intervalEntries (rule : Rule) : ∀ entry ∈ intervalEntries rule, Kept entry.1.text entry.2 := by
  unfold intervalEntries
  split
  · exact List.forall_mem_singleton.mpr (@kept_integer "INTERVAL" (by decide) rfl rule.interval)
  · exact List.forall_mem_nil _

theorem kept_partEntries (rule : Rule) :
    ∀ entry ∈ partEntries rule rule.restrictions, Kept entry.1.text entry.2 := by
  intro entry member
  obtain ⟨part, listed, rfl⟩ := List.mem_map.mp member
  exact kept_part (List.mem_filter.mp listed).2

/-- The keys of a rule text come in the order of a property. -/
theorem sublist_keyOrder (rule : Rule) :
    ("FREQ" :: (endingKeys rule.ending ++ intervalKeys rule ++
      rule.restrictions.map Key.restriction).map Key.text).Sublist keyOrder := by
  have ending : ((endingKeys rule.ending).map Key.text).Sublist ["UNTIL", "COUNT"] := by
    cases rule.ending with
    | never => exact List.nil_sublist _
    | afterCount => exact (by decide : ["COUNT"].Sublist ["UNTIL", "COUNT"])
    | afterDate => exact (by decide : ["UNTIL"].Sublist ["UNTIL", "COUNT"])
  have interval : ((intervalKeys rule).map Key.text).Sublist ["INTERVAL"] := by
    unfold intervalKeys
    split <;> decide
  have parts : ((rule.restrictions.map Key.restriction).map Key.text).Sublist
      (Part.all.map Part.key) := by
    rw [List.map_map]
    exact List.filter_sublist.map Part.key
  have order : ("FREQ" :: (["UNTIL", "COUNT"] ++ ["INTERVAL"] ++ Part.all.map Part.key)).Sublist
      keyOrder := by
    decide
  rw [List.map_append, List.map_append]
  exact (List.Sublist.cons_cons "FREQ" ((ending.append interval).append parts)).trans order

variable [Zone.Directory] {calendar : Calendar} {date : Moment} {rule : Rule}

theorem simple_of_utc {form : DateForm} (formed : dateForm calendar date = some form)
    (unmoved : date.offset = 0) : Simple form.chars := by
  obtain ⟨own, isOwn⟩ := exists_isLocal_of_dateForm formed
  rw [dateForm_of_utc isOwn unmoved] at formed
  rw [← Option.some.inj formed]
  split
  · exact simple_dateChars date.wall
  · exact simple_append.mpr ⟨simple_dateTimeChars date.wall, by decide⟩

theorem kept_endingEntries {ending : Ending} {entries : List (Key × List Char)}
    (unmoved : ∀ date ∈ ending.date?, date.offset = 0)
    (isWritten : endingEntries calendar ending = some entries) :
    ∀ entry ∈ entries, Kept entry.1.text entry.2 := by
  cases ending with
  | never =>
      cases isWritten
      exact List.forall_mem_nil _
  | afterCount count =>
      cases isWritten
      exact List.forall_mem_singleton.mpr (@kept_integer "COUNT" (by decide) rfl count)
  | afterDate date =>
      obtain ⟨form, formed, rfl⟩ := Option.map_eq_some_iff.mp isWritten
      exact List.forall_mem_singleton.mpr (kept_lastDate (simple_of_utc formed (unmoved date rfl)))

/-- A property keeps the text of a rule whose last date is in UTC. -/
theorem text_ofText_write {text : String} (unmoved : ∀ date ∈ rule.ending.date?, date.offset = 0)
    (isWritten : write calendar rule = some text) : (ofText text).text = text := by
  obtain ⟨ending, isEnding⟩ := exists_endingEntries_of_write isWritten
  rw [write, rulePieces_eq, isEnding, Option.map_some, Option.map_some] at isWritten
  obtain rfl := Option.some.inj isWritten
  have kept : ∀ entry ∈ ending ++ intervalEntries rule ++ partEntries rule rule.restrictions,
      Kept entry.1.text entry.2 :=
    List.forall_mem_append.mpr ⟨List.forall_mem_append.mpr
      ⟨kept_endingEntries unmoved isEnding, kept_intervalEntries rule⟩, kept_partEntries rule⟩
  have keys : (namedEntries rule.frequency
      (ending ++ intervalEntries rule ++ partEntries rule rule.restrictions)).map Prod.fst =
        "FREQ" :: (endingKeys rule.ending ++ intervalKeys rule ++
          rule.restrictions.map Key.restriction).map Key.text := by
    rw [← keys_endingEntries isEnding, ← keys_intervalEntries, ← keys_partEntries,
      ← List.map_append, ← List.map_append, namedEntries, List.map_cons, List.map_map, List.map_map]
    rfl
  rw [← spelled_namedEntries]
  refine RecurProperty.text_ofText (List.cons_ne_nil _ _) ?_ ?_
  · refine List.forall_mem_cons.mpr ⟨kept_frequency rule.frequency, fun entry member => ?_⟩
    obtain ⟨source, listed, rfl⟩ := List.mem_map.mp member
    exact kept source listed
  · rw [keys]
    exact sublist_keyOrder rule

end RuleText

end Recurrence
