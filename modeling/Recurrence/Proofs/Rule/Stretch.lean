import Recurrence.Proofs.Rule.Element
import Recurrence.Rule.Stretch
import Recurrence.Pieces

namespace Recurrence.Stretch

/-! Reading in place reads the characters there.

As long as a stretch does not go on behind the end of its text (`Stretch.isWithin`), every scanner gives what
the reader of its characters gives, and the first sign in it is where its characters are cut
(`Stretch.cutAt?_chars`).
-/

variable {stretch : Stretch}

theorem chars_eq (stretch : Stretch) :
    stretch.chars = (stretch.text.drop stretch.start).take (stretch.stop - stretch.start) :=
  List.drop_take

theorem chars_of_empty (empty : stretch.stop ≤ stretch.start) : stretch.chars = [] := by
  rw [chars_eq, Nat.sub_eq_zero_of_le empty, List.take_zero]

theorem le_of_within (within : stretch.isWithin = true) : stretch.stop ≤ stretch.text.length :=
  of_decide_eq_true within

theorem length_chars (within : stretch.isWithin = true) :
    stretch.chars.length = stretch.stop - stretch.start := by
  have inside := le_of_within within
  rw [chars_eq, List.length_take, List.length_drop]
  omega

theorem chars_cons (filled : stretch.start < stretch.stop)
    (inside : stretch.start < stretch.text.length) :
    stretch.chars = stretch.text[stretch.start] ::
      { stretch with start := stretch.start + 1 }.chars := by
  obtain ⟨more, length⟩ : ∃ more, stretch.stop - stretch.start = more + 1 :=
    ⟨stretch.stop - stretch.start - 1, by omega⟩
  have rest : stretch.stop - (stretch.start + 1) = more := by omega
  rw [chars_eq, chars_eq, List.drop_eq_getElem_cons inside, length, List.take_succ_cons, rest]

/-- A field of a stretch is cut out of its characters. -/
theorem chars_field (stretch : Stretch) {distance width : Nat}
    (inside : stretch.start + distance + width ≤ stretch.stop) :
    (⟨stretch.text, stretch.start + distance, stretch.start + distance + width⟩ : Stretch).chars =
      (stretch.chars.drop distance).take width := by
  rw [chars_eq, chars_eq, List.drop_take, List.drop_drop, List.take_take]
  congr 1
  dsimp only
  omega

theorem text_getElem? {distance : Nat} (inside : stretch.start + distance < stretch.stop) :
    stretch.text[stretch.start + distance]? = stretch.chars[distance]? := by
  rw [chars_eq, List.getElem?_take_of_lt (by omega), List.getElem?_drop]

/-- Digits that stand in the text are read one after another. -/
theorem scanFrom_of_le {text : List Char} {left position : Nat}
    (inside : position + left ≤ text.length) (value : Nat) :
    scanFrom text left position value =
      some (Digits.readFrom value ((text.drop position).take left)) := by
  induction left generalizing position value with
  | zero => rfl
  | succ left ih =>
      have here : position < text.length := by omega
      rw [scanFrom, List.getElem?_eq_getElem here, List.drop_eq_getElem_cons here,
        List.take_succ_cons, Digits.readFrom]
      simp only
      split
      · exact ih (by omega) _
      · rfl

theorem scanNat_of_within (within : stretch.isWithin = true) :
    stretch.scanNat = some (Digits.readNat stretch.chars) := by
  have inText := le_of_within within
  by_cases filled : stretch.start < stretch.stop
  · have inside : stretch.start < stretch.text.length := by omega
    have nonempty : stretch.chars ≠ [] := by
      rw [chars_cons filled inside]
      exact List.cons_ne_nil _ _
    rw [scanNat, if_neg (Nat.not_le_of_lt filled), scanFrom_of_le (by omega), ← chars_eq,
      Digits.readNat_of_ne_nil nonempty]
  · have empty := Nat.le_of_not_lt filled
    rw [scanNat, if_pos empty, chars_of_empty empty]
    rfl

theorem scanInt_of_within (within : stretch.isWithin = true) :
    stretch.scanInt = some (Digits.readInt stretch.chars) := by
  have inText := le_of_within within
  unfold scanInt
  by_cases filled : stretch.start < stretch.stop
  · have inside : stretch.start < stretch.text.length := by omega
    have chars := chars_cons filled inside
    rw [if_pos filled, List.getElem?_eq_getElem inside, chars]
    unfold Digits.readInt
    split
    · contradiction
    · next minus =>
        have rest : { stretch with start := stretch.start + 1 }.scanNat =
            some (Digits.readNat { stretch with start := stretch.start + 1 }.chars) :=
          scanNat_of_within within
        rw [rest, Option.some.inj minus]
        rfl
    · next c notMinus here =>
        rw [scanNat_of_within within, chars, Option.some.inj here]
        split
        · next isMinus => exact absurd (List.cons.inj isMinus).1 fun same => notMinus same
        · rfl
  · have empty := Nat.le_of_not_lt filled
    rw [if_neg filled, scanNat_of_within within, chars_of_empty empty]
    rfl

theorem scanBounded_of_within (domain : Domain) (within : stretch.isWithin = true) :
    stretch.scanBounded domain = some (domain.read stretch.chars) := by
  rw [scanBounded, scanInt_of_within within]
  rfl

theorem find?_eq_none {sign : Char} : stretch.find? sign = none ↔ sign ∉ stretch.chars := by
  simp only [find?, Option.map_eq_none_iff, List.findIdx?_eq_none_iff, beq_eq_false_iff_ne]
  exact ⟨fun none member => none sign member rfl, fun absent c member isSign =>
    absent (isSign ▸ member)⟩

/-- The first sign of a stretch parts its characters. -/
theorem chars_of_find? {sign : Char} {position : Nat} (found : stretch.find? sign = some position) :
    stretch.chars = { stretch with stop := position }.chars ++
        sign :: { stretch with start := position + 1 }.chars ∧
      sign ∉ { stretch with stop := position }.chars ∧
      position = stretch.start + { stretch with stop := position }.chars.length := by
  have bounds := lt_of_find? found
  simp only [find?, Option.map_eq_some_iff] at found
  obtain ⟨index, isIndex, rfl⟩ := found
  obtain ⟨inside, isSign, before⟩ := List.findIdx?_eq_some_iff_getElem.mp isIndex
  have first : { stretch with stop := stretch.start + index }.chars = stretch.chars.take index := by
    rw [chars_eq, chars_eq, List.take_take]
    congr 1
    dsimp only
    omega
  have others : { stretch with start := stretch.start + index + 1 }.chars =
      stretch.chars.drop (index + 1) := by
    rw [chars_eq, chars_eq, List.drop_take, List.drop_drop]
    congr 1
    dsimp only
    omega
  have here : stretch.chars[index] = sign := beq_iff_eq.mp isSign
  rw [first, others]
  refine ⟨?_, ?_, ?_⟩
  · rw [← here, List.getElem_cons_drop, List.take_append_drop]
  · intro member
    obtain ⟨earlier, short, isHere⟩ := List.mem_take_iff_getElem.mp member
    exact before earlier (by omega) (beq_iff_eq.mpr isHere)
  · rw [List.length_take]
    omega

theorem mem_of_find? {sign : Char} {position : Nat} (found : stretch.find? sign = some position) :
    sign ∈ stretch.chars := by
  rw [(chars_of_find? found).1]
  exact List.mem_append_right _ List.mem_cons_self

theorem cutAt?_chars (sign : Char) (stretch : Stretch) :
    cutAt? sign stretch.chars = (stretch.find? sign).map fun position =>
      ({ stretch with stop := position }.chars, { stretch with start := position + 1 }.chars) := by
  cases found : stretch.find? sign with
  | none =>
      cases cut : cutAt? sign stretch.chars with
      | none => rfl
      | some halves =>
          refine absurd ?_ (find?_eq_none.mp found)
          rw [(cutAt?_eq_some.mp cut).1]
          exact List.mem_append_right _ List.mem_cons_self
  | some position =>
      obtain ⟨parts, absent, _⟩ := chars_of_find? found
      exact cutAt?_eq_some.mpr ⟨parts, absent⟩

theorem isWithin_of_le {stop : Nat} (within : stretch.isWithin = true) (short : stop ≤ stretch.stop) :
    { stretch with stop }.isWithin = true :=
  decide_eq_true (Nat.le_trans short (le_of_within within))

theorem isWithin_of_find? {sign : Char} (within : stretch.isWithin = true) :
    { stretch with stop := (stretch.find? sign).getD stretch.stop }.isWithin = true := by
  cases found : stretch.find? sign with
  | none => exact within
  | some position => exact isWithin_of_le within (Nat.le_of_lt (lt_of_find? found).2)

theorem scanOrdinal_of_within (within : stretch.isWithin = true)
    (filled : stretch.start < stretch.stop) :
    stretch.scanOrdinal = some (DayEntry.readOrdinal stretch.chars) := by
  have inside : stretch.start < stretch.text.length :=
    Nat.lt_of_lt_of_le filled (le_of_within within)
  have chars := chars_cons filled inside
  unfold scanOrdinal DayEntry.readOrdinal
  rw [List.getElem?_eq_getElem inside, scanInt_of_within within]
  simp only
  split
  · next plus =>
      have rest : { stretch with start := stretch.start + 1 }.scanNat =
          some (Digits.readNat { stretch with start := stretch.start + 1 }.chars) :=
        scanNat_of_within within
      rw [rest, chars, plus]
      rfl
  · next notPlus =>
      split
      · next digits isPlus =>
          rw [chars] at isPlus
          exact absurd (List.cons.inj isPlus).1 notPlus
      · rfl

theorem scanDay_of_within (within : stretch.isWithin = true) :
    stretch.scanDay = some (DayEntry.read stretch.chars) := by
  have length := length_chars within
  unfold scanDay DayEntry.read
  by_cases short : stretch.stop < stretch.start + 2
  · rw [if_pos short, if_pos (by omega)]
  · have code : { stretch with start := stretch.stop - 2 }.chars =
        stretch.chars.drop (stretch.chars.length - 2) := by
      rw [length, chars, chars, List.drop_drop]
      congr 1
      dsimp only
      omega
    have front : { stretch with stop := stretch.stop - 2 }.chars =
        stretch.chars.take (stretch.chars.length - 2) := by
      rw [length, chars_eq, chars_eq, List.take_take]
      congr 1
      dsimp only
      omega
    have frontWithin : { stretch with stop := stretch.stop - 2 }.isWithin = true :=
      isWithin_of_le within (Nat.sub_le _ _)
    have frontLength : { stretch with stop := stretch.stop - 2 }.chars.length =
        stretch.stop - 2 - stretch.start := length_chars frontWithin
    rw [if_neg short, if_neg (by omega), code, ← front]
    simp only
    cases Weekday.ofCode? (String.ofList (stretch.chars.drop (stretch.chars.length - 2))) with
    | none => rfl
    | some weekday =>
        simp only
        by_cases empty : stretch.stop - 2 = stretch.start
        · rw [if_pos empty, if_pos (List.isEmpty_iff_length_eq_zero.mpr (by omega))]
        · have filled : stretch.start < stretch.stop - 2 := by omega
          have nonempty : ¬{ stretch with stop := stretch.stop - 2 }.chars.isEmpty = true := by
            rw [List.isEmpty_iff_length_eq_zero, frontLength]
            exact Nat.sub_ne_zero_of_lt filled
          rw [if_neg empty, if_neg nonempty, scanOrdinal_of_within frontWithin filled]
          rfl

end Recurrence.Stretch
