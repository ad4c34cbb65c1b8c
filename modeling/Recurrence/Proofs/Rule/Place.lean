import Mathlib.Data.List.TakeWhile
import Recurrence.Proofs.Rule.Assignments
import Recurrence.Proofs.Rule.Characters
import Recurrence.Proofs.Rule.Line
import Recurrence.Zone.Table

namespace Recurrence

/-! Rules that are read out of a larger text.

The reader never leaves the line that begins at its position (`RuleText.scanRule_eq_readAt`), and a line that
stands further on gives the same rule or the same fault, only further on (`RuleText.readAt_moved`).  So the rule
found at a position depends on the slice that begins there and on nothing around it, and reading it uses that
slice up (`RuleText.reads_slice`).
-/

def Piece.moved (distance : Nat) (piece : Piece) : Piece := ⟨distance + piece.start, piece.chars⟩

theorem locate_moved (distance start : Nat) (parts : List (List Char)) :
    locate (distance + start) parts = (locate start parts).map (Piece.moved distance) := by
  induction parts generalizing start with
  | nil => rfl
  | cons chars rest ih =>
      have next : distance + start + chars.length + 1 = distance + (start + chars.length + 1) := by omega
      rw [locate, locate, next, ih]
      rfl

namespace RuleText

section Results

variable {ε ε' ε'' α β : Type}

theorem mapError_bind (name : ε → ε') (result : Except ε α) (further : α → Except ε β) :
    (result >>= further).mapError name =
      result.mapError name >>= fun value => (further value).mapError name := by
  cases result <;> rfl

theorem mapError_map (name : ε → ε') (f : α → β) (result : Except ε α) :
    (result.map f).mapError name = (result.mapError name).map f := by
  cases result <;> rfl

theorem mapError_mapError (first : ε → ε') (second : ε' → ε'') (result : Except ε α) :
    (result.mapError first).mapError second = result.mapError fun failure => second (first failure) := by
  cases result <;> rfl

theorem map_bind (f : α → β) {γ : Type} (result : Except ε α) (further : β → Except ε γ) :
    result.map f >>= further = result >>= fun value => further (f value) := by
  cases result <;> rfl

end Results

def Finding.moved (distance : Nat) (finding : Finding) : Finding :=
  { finding with position := distance + finding.position }

def Stop.moved (distance : Nat) : Stop → Stop
  | .fault finding => .fault (finding.moved distance)
  | .outOfRange => .outOfRange
  | .outOfText => .outOfText

def Assignment.moved (distance : Nat) (assigned : Assignment) : Assignment :=
  ⟨distance + assigned.start, assigned.key, assigned.value.moved distance⟩

theorem Assignment.start_moved (distance : Nat) (assigned : Assignment) :
    (assigned.moved distance).start = distance + assigned.start := rfl

theorem Assignment.key_moved (distance : Nat) (assigned : Assignment) :
    (assigned.moved distance).key = assigned.key := rfl

/-! Every reader of a piece gives at the new place what it gave at the old one. -/

section Moved

variable (distance : Nat) (rule : Rule)

theorem mapError_fault_moved {α : Type} (result : Except Finding α) :
    (result.mapError Stop.fault).mapError (Stop.moved distance) =
      (result.mapError (Finding.moved distance)).mapError Stop.fault := by
  rw [mapError_mapError, mapError_mapError]
  rfl

theorem assignment_moved (piece : Piece) :
    assignment (piece.moved distance) =
      ((assignment piece).mapError (Finding.moved distance)).map (Assignment.moved distance) := by
  unfold assignment
  cases cut : cutAt? '=' piece.chars with
  | none =>
      simp only [Piece.moved, cut]
      rfl
  | some halves =>
      have place : distance + piece.start + halves.1.length + 1 =
          distance + (piece.start + halves.1.length + 1) := by omega
      simp only [Piece.moved, cut, place]
      rfl

theorem readFrequency_moved (value : Piece) :
    readFrequency (value.moved distance) = (readFrequency value).mapError (Finding.moved distance) := by
  simp only [readFrequency, Piece.moved]
  cases Frequency.ofName? (String.ofList value.chars) with
  | some frequency => rfl
  | none =>
      simp only
      rw [apply_ite (Except.mapError _)]
      rfl

theorem readPositive_moved (key : String) (value : Piece) :
    readPositive key (value.moved distance) = (readPositive key value).mapError (Finding.moved distance) := by
  simp only [readPositive, Piece.moved]
  split <;> rfl

theorem readElements_moved {α : Type} (read : List Char → Option α) (key : String)
    (pieces : List Piece) :
    readElements read key (pieces.map (Piece.moved distance)) =
      (readElements read key pieces).mapError (Finding.moved distance) := by
  induction pieces with
  | nil => rfl
  | cons piece rest ih =>
      rw [List.map_cons, readElements, readElements, ih, Piece.moved]
      simp only
      cases read piece.chars with
      | none => rfl
      | some element => exact (mapError_map _ _ _).symm

theorem elements_moved (value : Piece) :
    elements (value.moved distance) = (elements value).map (Piece.moved distance) :=
  locate_moved distance value.start _

theorem checkEnding_moved (name : String) (start : Nat) :
    checkEnding rule name (distance + start) =
      (checkEnding rule name start).mapError (Finding.moved distance) := by
  unfold checkEnding
  split <;> rfl

theorem pieces_moved (start : Nat) (text : List Char) :
    pieces (distance + start) text = (pieces start text).map (Piece.moved distance) :=
  locate_moved distance start _

theorem readRestriction_moved (part : Part) (assigned : Assignment) :
    readRestriction rule part (assigned.moved distance) =
      (readRestriction rule part assigned).mapError (Finding.moved distance) := by
  cases part <;>
    simp only [readRestriction, Assignment.moved, elements_moved, readElements_moved, mapError_map]

theorem recognize_moved (seen : List String) (name : String) (start : Nat) :
    recognize seen name (distance + start) =
      (recognize seen name start).mapError (Finding.moved distance) := by
  rw [recognize, recognize, apply_ite (Except.mapError _)]
  cases Key.ofText? name <;> rfl

theorem readFirst_moved (piece : Piece) :
    readFirst (piece.moved distance) = (readFirst piece).mapError (Finding.moved distance) := by
  simp only [readFirst, mapError_bind, assignment_moved, map_bind]
  congr 1
  funext assigned
  simp only [Assignment.moved, readFrequency_moved]
  split
  · rfl
  · rw [mapError_bind]
    rfl

variable [Zone.Directory] (calendar : Calendar)

theorem readLastDate_moved (assigned : Assignment) :
    readLastDate calendar (assigned.moved distance) =
      (readLastDate calendar assigned).mapError (Stop.moved distance) := by
  simp only [readLastDate, Assignment.moved, Piece.moved]
  split <;> rfl

theorem assign_moved (key : Key) (assigned : Assignment) :
    assign calendar rule key (assigned.moved distance) =
      (assign calendar rule key assigned).mapError (Stop.moved distance) := by
  cases key with
  | lastDate =>
      simp only [assign, mapError_bind, mapError_fault_moved, readLastDate_moved]
      simp only [Assignment.moved, Piece.moved, checkEnding_moved]
      rfl
  | count =>
      simp only [assign, mapError_bind, mapError_fault_moved, Assignment.moved, readPositive_moved]
      simp only [Piece.moved, checkEnding_moved]
      rfl
  | interval =>
      simp only [assign, mapError_fault_moved, mapError_map]
      simp only [Assignment.moved, readPositive_moved]
  | restriction part =>
      simp only [assign, mapError_fault_moved, readRestriction_moved]

theorem readLater_moved (seen : List String) (pieces : List Piece) :
    readLater calendar seen rule (pieces.map (Piece.moved distance)) =
      (readLater calendar seen rule pieces).mapError (Stop.moved distance) := by
  induction pieces generalizing seen rule with
  | nil => rfl
  | cons piece rest ih =>
      simp only [List.map_cons, readLater, mapError_bind, mapError_fault_moved, assignment_moved,
        mapError_map, map_bind, Assignment.start_moved, Assignment.key_moved, recognize_moved,
        assign_moved, ih]

/-- A text that stands further on is read in the same way, and its faults stand further on. -/
theorem readAt_moved (start : Nat) (text : List Char) :
    readAt calendar (distance + start) text = (readAt calendar start text).mapError (Stop.moved distance) := by
  simp only [readAt, pieces_moved]
  split
  · rfl
  · cases pieces start text with
    | nil => rfl
    | cons first rest =>
        simp only [List.map_cons, readFirst_moved, readLater_moved]
        cases readFirst first <;> rfl

end Moved

/-- What stands in a text from a position on, up to the first line break or the end that is given. -/
def slice (text : List Char) (start : Nat) (stop : Option Nat) : List Char :=
  ((stop.elim text text.take).drop start).takeWhile fun c => !isLineBreak c

/-- Where a slice can end: at a line break, at the end of the text or at the end that is given. -/
def IsEnd (text : List Char) (stop : Option Nat) (index : Nat) : Prop :=
  index = text.length ∨ stop = some index ∨ ∃ c, text[index]? = some c ∧ isLineBreak c = true

variable {text : List Char} {start : Nat} {stop : Option Nat}

theorem window_eq_slice : window text start (stop.map Int.ofNat) = slice text start stop := by
  cases stop <;> rfl

theorem oneLine_slice : ∀ c ∈ slice text start stop, isLineBreak c = false :=
  fun c member => by simpa using List.mem_takeWhile_imp member

theorem exists_of_length_takeWhile_lt {property : Char → Bool} {chars : List Char}
    (short : (chars.takeWhile property).length < chars.length) :
    ∃ c, chars[(chars.takeWhile property).length]? = some c ∧ property c = false := by
  induction chars with
  | nil => exact absurd short (Nat.lt_irrefl 0)
  | cons c rest ih =>
      cases holds : property c with
      | false => exact ⟨c, by simp [holds], holds⟩
      | true =>
          simp only [List.takeWhile_cons, holds, if_true, List.length_cons, Nat.succ_lt_succ_iff] at short ⊢
          exact ih short

/-- Only an end stops a slice that is not empty. -/
theorem isEnd_slice (filled : slice text start stop ≠ []) :
    IsEnd text stop (start + (slice text start stop).length) := by
  have inside : slice text start stop <+: (stop.elim text text.take).drop start :=
    List.takeWhile_prefix _
  have reach : start < (stop.elim text text.take).length := by
    have positive := List.length_pos_iff.2 filled
    have bound := inside.length_le
    rw [List.length_drop] at bound
    omega
  by_cases short : (slice text start stop).length < ((stop.elim text text.take).drop start).length
  · obtain ⟨c, next, isBreak⟩ := exists_of_length_takeWhile_lt short
    refine .inr (.inr ⟨c, ?_, by simpa using isBreak⟩)
    rw [List.getElem?_drop] at next
    cases stop with
    | none => exact next
    | some stop =>
        rw [Option.elim_some, List.getElem?_take, Option.ite_none_right_eq_some] at next
        exact next.2
  · have whole : start + (slice text start stop).length = (stop.elim text text.take).length := by
      have bound := inside.length_le
      rw [List.length_drop] at short bound
      omega
    rw [whole]
    cases stop with
    | none => exact .inl rfl
    | some stop =>
        rcases Nat.le_total stop text.length with within | beyond
        · exact .inr (.inl (congrArg some (List.length_take_of_le within).symm))
        · exact .inl (congrArg List.length (List.take_of_length_le beyond))

end RuleText

/-- A failure in a part of a text, told of the whole text. -/
def ParseFailure.within (text : String) (start : Nat) : ParseFailure → ParseFailure
  | .rule error => .rule { error with subject := text, position := error.position.map (start + ·) }
  | .outOfRange => .outOfRange
  | .outOfText => .outOfText
  | .unwritten fault => .unwritten fault

namespace RuleText

theorem about_moved (stop : Stop) (text part : String) (start : Nat) :
    (stop.moved start).about text = (stop.about part).within text start := by
  cases stop <;> rfl

variable [Zone.Directory]

/-- An answer is that of the slice at a position.  Its rule ends where the slice does, and the place of
its fault is counted from the start of the whole text. -/
structure AnswersSlice (calendar : Calendar) (text : String) (start : Nat) (stop : Option Nat)
    (answer : Except ParseFailure (Nat × Rule)) : Prop where
  same : answer = ((readPartial calendar (String.ofList (slice text.toList start stop)) 0 none).map
    fun found => (start + found.1, found.2)).mapError (ParseFailure.within text start)
  ends : ∀ found, answer = .ok found →
    found.1 = start + (slice text.toList start stop).length ∧ IsEnd text.toList stop found.1
  placed : ∀ error, answer = .error (.rule error) → ∃ place, error.position = some (start + place)

theorem readPartial_eq_slice (calendar : Calendar) (text : String) (start : Nat) (stop : Option Nat) :
    readPartial calendar text start (stop.map Int.ofNat) =
      ((readAt calendar 0 (slice text.toList start stop)).map fun rule =>
        (start + (slice text.toList start stop).length, rule)).mapError fun failure =>
          (failure.moved start).about text := by
  have apart := readAt_moved start calendar 0 (slice text.toList start stop)
  rw [Nat.add_zero] at apart
  rw [readPartial_eq, window_eq_slice, apart, ← mapError_map, mapError_mapError]

theorem answersSlice_readPartial (calendar : Calendar) (text : String) (start : Nat)
    (stop : Option Nat) :
    AnswersSlice calendar text start stop
      (readPartial calendar text start (stop.map Int.ofNat)) where
  same := by
    rw [readPartial_eq_slice, readPartial_eq, String.toList_ofList, window_eq_self oneLine_slice]
    cases readAt calendar 0 (slice text.toList start stop) with
    | ok rule =>
        simp only [Except.map, mapError_ok, Nat.zero_add]
    | error failure => exact congrArg Except.error (about_moved failure text _ start)
  ends := by
    intro found reads
    rw [readPartial_eq_slice, mapError_eq_ok, map_eq_ok] at reads
    obtain ⟨rule, isRead, rfl⟩ := reads
    refine ⟨rfl, isEnd_slice fun empty => ?_⟩
    rw [empty] at isRead
    cases isRead
  placed := by
    intro error reads
    rw [readPartial_eq_slice] at reads
    cases isRead : readAt calendar 0 (slice text.toList start stop) with
    | ok rule =>
        rw [isRead] at reads
        cases reads
    | error failure =>
        rw [isRead] at reads
        cases failure with
        | fault finding =>
            cases reads
            exact ⟨finding.position, rfl⟩
        | outOfRange | outOfText => cases reads

/-- What is read at a position of a text is what is read of the slice that begins there; a content line
is read from behind the name of its property. -/
theorem reads_slice (calendar : Calendar) :
    (∀ text start stop, AnswersSlice calendar text start stop
      (readPartial calendar text start (stop.map Int.ofNat))) ∧
    ∀ before after : List Char,
      let line := String.ofList (before ++ propertyName.toList ++ after)
      AnswersSlice calendar line (before.length + propertyName.length) none
        (readLine calendar line before.length) := by
  refine ⟨answersSlice_readPartial calendar, fun before after => ?_⟩
  have starts : before.length ≤ (before ++ propertyName.toList ++ after).length ∧
      propertyName.toList.isPrefixOf ((before ++ propertyName.toList ++ after).drop before.length) := by
    rw [List.append_assoc, List.drop_left, List.isPrefixOf_iff_prefix, List.length_append]
    exact ⟨Nat.le_add_right _ _, List.prefix_append _ _⟩
  simp only [readLine, String.toList_ofList, if_pos starts]
  exact answersSlice_readPartial calendar _ _ none

end RuleText

namespace RuleText

attribute [local instance] Zone.table

example : readLine {} "X:1\nRRULE:FREQ=DAILY;COUNT=03\nCOUNT=4" 4 =
    .ok (29, { frequency := .daily, ending := .afterCount 3 }) := by
  simp only [readLine, readPartial_eq]
  decide +kernel

end RuleText

end Recurrence
