import Mathlib.Data.List.Forall2
import Recurrence.Proofs.Digits
import Recurrence.Proofs.Rule.Pieces

namespace Recurrence

/-! How the values in a rule text are spelled.

The relations say which characters stand for a number, a weekday or a list.  Each of them has an
equation for its reader, so a value is read exactly if it is spelled.
-/

namespace Digits

/-- A number is spelled by one digit or more; leading zeros count for nothing. -/
structure Spells (digits : List Char) (n : Nat) : Prop where
  nonempty : digits ≠ []
  areDigits : ∀ c ∈ digits, isDigit c = true
  value : digits.foldl (fun value c => value * 10 + digitValue c) 0 = n

inductive SpellsInt : List Char → Int → Prop
  | plain {digits : List Char} {n : Nat} (spells : Spells digits n) : SpellsInt digits n
  | minus {digits : List Char} {n : Nat} (spells : Spells digits n) : SpellsInt ('-' :: digits) (-n)

/-- In front of a weekday a number may have a plus too. -/
inductive SpellsOrdinal : List Char → Int → Prop
  | signed {chars : List Char} {value : Int} (spells : SpellsInt chars value) :
      SpellsOrdinal chars value
  | plus {digits : List Char} {n : Nat} (spells : Spells digits n) :
      SpellsOrdinal ('+' :: digits) n

variable {digits chars : List Char} {n : Nat} {value : Int}

theorem readFrom_eq_some {start : Nat} :
    readFrom start digits = some n ↔
      (∀ c ∈ digits, isDigit c = true) ∧
        digits.foldl (fun value c => value * 10 + digitValue c) start = n := by
  induction digits generalizing start with
  | nil => simp [readFrom]
  | cons c rest ih =>
      unfold readFrom
      split
      · next digit => simp [ih, digit]
      · next notDigit => simp [notDigit]

theorem readNat_eq_some : readNat digits = some n ↔ Spells digits n := by
  cases digits with
  | nil => exact ⟨nofun, fun spells => absurd rfl spells.nonempty⟩
  | cons c rest =>
      rw [readNat_of_ne_nil (List.cons_ne_nil c rest), readFrom_eq_some]
      exact ⟨fun read => ⟨List.cons_ne_nil c rest, read.1, read.2⟩,
        fun spells => ⟨spells.areDigits, spells.value⟩⟩

theorem Spells.head_isDigit {c : Char} {rest : List Char} (spells : Spells (c :: rest) n) :
    isDigit c = true :=
  spells.areDigits c List.mem_cons_self

theorem readInt_eq_some : readInt chars = some value ↔ SpellsInt chars value := by
  unfold readInt
  split
  · next digits =>
      rw [Option.map_eq_some_iff]
      constructor
      · rintro ⟨n, read, rfl⟩
        exact .minus (readNat_eq_some.1 read)
      · intro spells
        cases spells with
        | plain spells => exact absurd spells.head_isDigit (by decide)
        | minus spells => exact ⟨_, readNat_eq_some.2 spells, rfl⟩
  · next noMinus =>
      rw [Option.map_eq_some_iff]
      constructor
      · rintro ⟨n, read, rfl⟩
        exact .plain (readNat_eq_some.1 read)
      · intro spells
        cases spells with
        | plain spells => exact ⟨_, readNat_eq_some.2 spells, rfl⟩
        | minus spells => exact absurd rfl (noMinus _)

theorem Spells.not_mem {c : Char} (spells : Spells digits n) (other : isDigit c = false) :
    c ∉ digits := by
  intro member
  rw [spells.areDigits c member] at other
  contradiction

theorem SpellsInt.not_mem {c : Char} (spells : SpellsInt chars value) (other : isDigit c = false)
    (noMinus : c ≠ '-') : c ∉ chars := by
  cases spells with
  | plain spells => exact spells.not_mem other
  | minus spells => exact List.not_mem_cons_of_ne_of_not_mem noMinus (spells.not_mem other)

theorem SpellsOrdinal.not_mem {c : Char} (spells : SpellsOrdinal chars value)
    (other : isDigit c = false) (noMinus : c ≠ '-') (noPlus : c ≠ '+') : c ∉ chars := by
  cases spells with
  | signed spells => exact spells.not_mem other noMinus
  | plus spells => exact List.not_mem_cons_of_ne_of_not_mem noPlus (spells.not_mem other)

theorem SpellsOrdinal.ne_nil (spells : SpellsOrdinal chars value) : chars ≠ [] := by
  rcases spells with (spells | spells) | spells
  · exact spells.nonempty
  · exact List.cons_ne_nil _ _
  · exact List.cons_ne_nil _ _

end Digits

namespace Domain

def Spells (domain : Domain) (chars : List Char) (value : Int) : Prop :=
  Digits.SpellsInt chars value ∧ domain.has value = true

theorem read_eq_some {domain : Domain} {chars : List Char} {value : Int} :
    domain.read chars = some value ↔ domain.Spells chars value := by
  rw [read, Option.filter_eq_some_iff, Digits.readInt_eq_some]
  rfl

theorem Spells.noComma {domain : Domain} {chars : List Char} {value : Int}
    (spells : domain.Spells chars value) : ',' ∉ chars :=
  spells.1.not_mem (by decide) (by decide)

end Domain

theorem Weekday.ofCode?_eq_some {text : String} {weekday : Weekday} :
    ofCode? text = some weekday ↔ weekday.code = text := by
  constructor
  · intro known
    exact beq_iff_eq.1 (List.find?_some known :)
  · rintro rfl
    exact ofCode?_code weekday

namespace DayEntry

inductive Spelled : List Char → DayEntry → Prop
  | every (weekday : Weekday) : Spelled weekday.code.toList (.every weekday)
  | nth {chars : List Char} {ordinal : Int} (spells : Digits.SpellsOrdinal chars ordinal)
      (inside : Domain.ordinals.has ordinal = true) (weekday : Weekday) :
      Spelled (chars ++ weekday.code.toList) ⟨some ordinal, weekday⟩

variable {chars : List Char} {entry : DayEntry}

theorem readOrdinal_eq_some {ordinal : Int} :
    readOrdinal chars = some ordinal ↔
      Digits.SpellsOrdinal chars ordinal ∧ Domain.ordinals.has ordinal = true := by
  unfold readOrdinal
  rw [Option.filter_eq_some_iff]
  refine and_congr_left' ?_
  split
  · next digits =>
      rw [Option.map_eq_some_iff]
      constructor
      · rintro ⟨n, read, rfl⟩
        exact .plus (Digits.readNat_eq_some.1 read)
      · intro spells
        rcases spells with (spells | _) | spells
        · exact absurd spells.head_isDigit (by decide)
        · exact ⟨_, Digits.readNat_eq_some.2 spells, rfl⟩
  · next noPlus =>
      rw [Digits.readInt_eq_some]
      constructor
      · exact .signed
      · intro spells
        cases spells with
        | signed spells => exact spells
        | plus _ => exact absurd rfl (noPlus _)

theorem length_code (weekday : Weekday) : weekday.code.toList.length = 2 := by
  cases weekday <;> rfl

/-- What is read of an entry once its code is cut off. -/
theorem read_append (front : List Char) (weekday : Weekday) :
    read (front ++ weekday.code.toList) =
      if front.isEmpty then some (every weekday)
      else (readOrdinal front).map fun number => ⟨some number, weekday⟩ := by
  have length : (front ++ weekday.code.toList).length - 2 = front.length := by
    simp [length_code]
  rw [read, if_neg (by simp [length_code]), length, List.take_left, List.drop_left,
    String.ofList_toList, Weekday.ofCode?_code]

theorem exists_code_of_read (reads : read chars = some entry) :
    ∃ front, chars = front ++ entry.weekday.code.toList := by
  unfold read at reads
  split at reads
  · contradiction
  · simp only at reads
    split at reads
    · contradiction
    · next weekday known =>
        have code := congrArg String.toList (Weekday.ofCode?_eq_some.1 known)
        rw [String.toList_ofList] at code
        have same : entry.weekday = weekday := by
          split at reads
          · exact (congrArg DayEntry.weekday (Option.some.inj reads)).symm
          · obtain ⟨number, _, rfl⟩ := Option.map_eq_some_iff.1 reads
            rfl
        rw [same, code]
        exact ⟨_, (List.take_append_drop _ _).symm⟩

theorem read_eq_some : read chars = some entry ↔ Spelled chars entry := by
  constructor
  · intro reads
    obtain ⟨front, rfl⟩ := exists_code_of_read reads
    rw [read_append] at reads
    split at reads
    · next isEmpty =>
        rw [List.isEmpty_iff.1 isEmpty, ← Option.some.inj reads]
        exact .every _
    · obtain ⟨ordinal, isOrdinal, same⟩ := Option.map_eq_some_iff.1 reads
      obtain ⟨spells, inside⟩ := readOrdinal_eq_some.1 isOrdinal
      rw [← same]
      exact .nth spells inside _
  · intro spelled
    cases spelled with
    | every weekday => exact read_append [] weekday
    | @nth chars ordinal spells inside weekday =>
        rw [read_append, if_neg (by simpa using spells.ne_nil),
          readOrdinal_eq_some.2 ⟨spells, inside⟩, Option.map_some]

theorem Spelled.noComma (spelled : Spelled chars entry) : ',' ∉ chars := by
  have code (weekday : Weekday) : ',' ∉ weekday.code.toList := by cases weekday <;> decide
  cases spelled with
  | every weekday => exact code weekday
  | nth spells inside weekday =>
      exact List.not_mem_append (spells.not_mem (by decide) (by decide) (by decide)) (code weekday)

end DayEntry

namespace RuleText

/-- One element or more, with commas between them. -/
def SpellsList {α : Type} (spells : List Char → α → Prop) (chars : List Char) (values : List α) :
    Prop :=
  values ≠ [] ∧ ∃ pieces, chars = join ',' pieces ∧ List.Forall₂ spells pieces values

section Elements

variable {α : Type} {read : List Char → Option α} {spells : List Char → α → Prop}

theorem readElements_locate_eq_ok {key : String} {pieces : List (List Char)} {values : List α}
    {start : Nat} (reads : ∀ chars value, read chars = some value ↔ spells chars value) :
    readElements read key (locate start pieces) = .ok values ↔
      List.Forall₂ spells pieces values := by
  induction pieces generalizing start values with
  | nil =>
      rw [locate, readElements, List.forall₂_nil_left_iff]
      exact ⟨fun same => (Except.ok.inj same).symm, fun same => congrArg Except.ok same.symm⟩
  | cons piece rest ih =>
      rw [locate, List.forall₂_cons_left_iff]
      cases first : read piece with
      | none =>
          have notSpelled (value : α) : ¬spells piece value := by
            rw [← reads, first]
            exact nofun
          simp [readElements, first, notSpelled]
      | some value =>
          have isFirst (other : α) : spells piece other ↔ value = other := by
            rw [← reads, first, Option.some.injEq]
          simp only [readElements, first, isFirst]
          cases others : readElements read key (locate (start + piece.length + 1) rest) with
          | error finding =>
              have noOthers (later : List α) : ¬List.Forall₂ spells rest later := by
                rw [← @ih later (start + piece.length + 1), others]
                exact nofun
              simp [Except.map, noOthers]
          | ok later =>
              have isLater (more : List α) : List.Forall₂ spells rest more ↔ later = more := by
                rw [← @ih more (start + piece.length + 1), others, Except.ok.injEq]
              simp [Except.map, isLater, eq_comm]

/-- The elements of a list are read exactly if they are spelled, for no element has a comma. -/
theorem readElements_eq_ok {key : String} {place : Nat} {chars : List Char} {values : List α}
    (reads : ∀ chars value, read chars = some value ↔ spells chars value)
    (noComma : ∀ chars value, spells chars value → ',' ∉ chars) :
    readElements read key (elements ⟨place, chars⟩) = .ok values ↔
      SpellsList spells chars values := by
  rw [elements, readElements_locate_eq_ok reads]
  constructor
  · intro spelled
    refine ⟨?_, split ',' chars, (join_split ',' chars).symm, spelled⟩
    rintro rfl
    exact split_ne_nil ',' chars (List.forall₂_nil_right_iff.1 spelled)
  · rintro ⟨nonempty, pieces, rfl, spelled⟩
    have filled : pieces ≠ [] := by
      rintro rfl
      exact nonempty (List.forall₂_nil_left_iff.1 spelled)
    have marked : List.Forall₂ (fun piece value => ',' ∉ piece ∧ spells piece value) pieces values :=
      spelled.imp fun piece value spells => ⟨noComma piece value spells, spells⟩
    rw [split_join filled ((List.forall₂_and_left _ _).1 marked).1]
    exact spelled

end Elements

theorem readPositive_eq_ok {key : String} {place : Nat} {chars : List Char} {value : Int} :
    readPositive key ⟨place, chars⟩ = .ok value ↔
      ∃ n : Nat, Digits.Spells chars n ∧ 1 ≤ n ∧ value = n := by
  simp only [← Digits.readNat_eq_some]
  unfold readPositive
  split
  · next n isNumber =>
      simp only at isNumber
      simp [isNumber, eq_comm]
  · next noPositive =>
      refine ⟨nofun, ?_⟩
      rintro ⟨n, isNumber, positive, rfl⟩
      obtain ⟨before, rfl⟩ : ∃ before, n = before + 1 := ⟨n - 1, by omega⟩
      exact absurd isNumber (noPositive before)

end RuleText

end Recurrence
