import Recurrence.Proofs.Rule.Agreement
import Recurrence.Proofs.Rule.Characters
import Recurrence.Proofs.Rule.Understood

namespace Recurrence

/-! What each written assignment does to the rule that is read.

The count, the last date and the interval set their own fields, and a part takes over the values that
the written rule has for it (`Rule.adopt`).
-/

namespace RuleText

section Elements

variable {α : Type} {read : List Char → Option α} {write : α → List Char}

theorem readElements_locate (key : String) {values : List α}
    (undone : ∀ value ∈ values, read (write value) = some value) (start : Nat) :
    readElements read key (locate start (values.map write)) = .ok values := by
  induction values generalizing start with
  | nil => rfl
  | cons value rest ih =>
      obtain ⟨first, others⟩ := List.forall_mem_cons.1 undone
      simp only [List.map_cons, locate, readElements, first, ih others, Except.map]

theorem readElements_join (key : String) {values : List α} (nonempty : values ≠ [])
    (undone : ∀ value ∈ values, read (write value) = some value)
    (noComma : ∀ value ∈ values, ',' ∉ write value) (place : Nat) :
    readElements read key (elements ⟨place, join ',' (values.map write)⟩) = .ok values := by
  have absent : ∀ piece ∈ values.map write, ',' ∉ piece := by
    intro piece member
    obtain ⟨value, inList, rfl⟩ := List.mem_map.1 member
    exact noComma value inList
  have filled : values.map write ≠ [] := fun empty => nonempty (List.map_eq_nil_iff.1 empty)
  rw [elements, split_join filled absent]
  exact readElements_locate key undone place

end Elements

theorem readNat_ofInt {value : Int} (positive : 1 ≤ value) :
    Digits.readNat (Digits.ofInt value 0) = some value.toNat := by
  have digits : Digits.ofInt value 0 = Digits.padded value.toNat 0 := by
    rw [Digits.ofInt, if_neg (by omega)]
    congr 1
    omega
  rw [digits, Digits.readNat_padded]

theorem readPositive_ofInt (key : String) (place : Nat) {value : Int} (positive : 1 ≤ value) :
    readPositive key ⟨place, Digits.ofInt value 0⟩ = .ok value := by
  obtain ⟨number, rfl⟩ : ∃ number : Nat, value = (number + 1 : Nat) := ⟨value.toNat - 1, by omega⟩
  rw [readPositive, readNat_ofInt positive]
  rfl

theorem readElements_numberList (key : String) {domain : Domain} {values : List Int}
    (nonempty : values ≠ []) (inside : ∀ value ∈ values, domain.has value = true) (place : Nat) :
    readElements domain.read key (elements ⟨place, numberList values⟩) = .ok values := by
  refine readElements_join key nonempty (fun value member => ?_)
    (fun value _ => (simple_ofInt value 0).not_mem rfl) place
  rw [Domain.read, Digits.readInt_ofInt, Option.filter_some, if_pos (inside value member)]

theorem readElements_weekdayList (key : String) {entries : List DayEntry} (nonempty : entries ≠ [])
    (valid : ∀ entry ∈ entries, entry.Valid) (place : Nat) :
    readElements DayEntry.read key (elements ⟨place, weekdayList entries⟩) = .ok entries :=
  readElements_join key nonempty (fun entry member => DayEntry.read_text (valid entry member))
    (fun entry _ => (simple_text entry).not_mem rfl) place

variable [Zone.Directory] {calendar : Calendar} {source rule : Rule}

theorem assign_count {count : Int} (endless : rule.ending = .never) (positive : 1 ≤ count)
    (start place : Nat) :
    assign calendar rule .count ⟨start, Key.count.text, ⟨place, Digits.ofInt count 0⟩⟩ =
      .ok { rule with ending := .afterCount count } := by
  have ends : checkEnding rule Key.count.text place = .ok () := by
    rw [checkEnding, endless]
    rfl
  simp only [assign, ends, readPositive_ofInt _ place positive, bind, Except.bind, pure, Except.pure,
    mapError_ok]

/-- What stands for a last date is assigned as the date that is read there. -/
theorem assign_lastDate {value : List Char} {read : Moment} (endless : rule.ending = .never)
    (reads : Until.read calendar value = .ok (some read)) (whole : read.wall.microsecond = 0)
    (start place : Nat) :
    assign calendar rule .lastDate ⟨start, Key.lastDate.text, ⟨place, value⟩⟩ =
      .ok { rule with ending := .afterDate read } := by
  have truncated : read.truncate = read := by
    rw [Moment.truncate, WallTime.truncate_of_microsecond whole]
  have ends : checkEnding rule Key.lastDate.text place = .ok () := by
    rw [checkEnding, endless]
    rfl
  have dated : readLastDate calendar ⟨start, Key.lastDate.text, ⟨place, value⟩⟩ = .ok read := by
    rw [readLastDate, reads]
  simp only [assign, ends, dated, truncated, bind, Except.bind, pure, Except.pure, mapError_ok]

theorem assign_interval {interval : Int} (positive : 1 ≤ interval) (start place : Nat) :
    assign calendar rule .interval ⟨start, Key.interval.text, ⟨place, Digits.ofInt interval 0⟩⟩ =
      .ok { rule with interval := interval } := by
  simp only [assign, readPositive_ofInt _ place positive, Except.map, mapError_ok]

theorem assign_restriction {part : Part} (valid : source.Valid)
    (restricts : source.restricts part = true) (start place : Nat) :
    assign calendar rule (.restriction part)
        ⟨start, (Key.restriction part).text, ⟨place, partValue source part⟩⟩ =
      .ok (source.adopt rule part) := by
  obtain ⟨_, _, weekdays, numbers⟩ := valid
  have inside := numbers part (Part.mem_all part)
  cases part with
  | weekday =>
      have nonempty : source.weekdays ≠ [] := by simpa [Rule.restricts] using restricts
      simp only [assign, readRestriction, partValue, readElements_weekdayList _ nonempty weekdays,
        Except.map, mapError_ok, Rule.adopt]
  | _ =>
      have nonempty := List.isEmpty_eq_false_iff.1 (Bool.not_eq_eq_eq_not.1 restricts)
      simp only [assign, readRestriction, partValue, readElements_numberList _ nonempty inside,
        Except.map, mapError_ok, Rule.adopt]

end RuleText

end Recurrence
