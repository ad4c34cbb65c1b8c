import Recurrence.Proofs.Rule.Effects
import Recurrence.Proofs.Rule.Scanner

namespace Recurrence

/-! Numbers and lists of numbers that are read back where they were written.

Writing behind a buffer puts the digits there that writing a number gives (`Digits.append_eq`), and reading
between two positions of a text reads the characters there (`Stretch.scanInt_of_within`,
`RuleText.scanList_of_within`).  So reading the stretch that was written gives the numbers back, whatever
stands before and behind it: `RuleText.scans_appended`.
-/

namespace Digits

/-- The digits of a number are those by which the standard library writes it. -/
theorem ofNat_eq_toDigits (n : Nat) : ofNat n = Nat.toDigits 10 n := by
  have digitChar_eq : ∀ digit < 10, digitChar digit = Nat.digitChar digit := by decide
  induction n using Nat.strongRecOn with
  | _ n ih =>
      rw [ofNat, Nat.toDigits_eq_if (by decide)]
      split
      · next small => rw [digitChar_eq n small]
      · next large => rw [ih (n / 10) (by omega), digitChar_eq _ (Nat.mod_lt n (by decide))]

theorem reverse_backwards (n : Nat) : (backwards n).reverse = ofNat n := by
  induction n using Nat.strongRecOn with
  | _ n ih =>
      rw [backwards, ofNat, List.reverse_cons]
      by_cases small : n < 10
      · rw [if_pos small, if_pos (by omega), Nat.mod_eq_of_lt small]
        rfl
      · rw [if_neg small, if_neg (by omega), ih (n / 10) (by omega)]

/-- Writing behind a buffer keeps what the buffer holds. -/
theorem append_eq (buffer : List Char) (value width : Int) :
    append buffer value width = buffer ++ ofInt value width := by
  have length : (backwards value.natAbs).length = (ofNat value.natAbs).length := by
    rw [← reverse_backwards, List.length_reverse]
  have zeros : (width - (backwards value.natAbs).length).toNat =
      width.toNat - (ofNat value.natAbs).length := by omega
  simp only [append, zeros, reverse_backwards, ofInt, padded]
  split
  · rw [List.append_assoc, List.append_assoc, List.singleton_append]
  · rw [List.append_assoc]

end Digits

namespace Stretch

/-- The stretch of a text that stands between two others. -/
def between (before written rest : List Char) : Stretch :=
  ⟨before ++ written ++ rest, before.length, (before ++ written).length⟩

theorem between_chars (before written rest : List Char) :
    (between before written rest).chars = written := by
  rw [chars, between, List.take_left, List.drop_left]

theorem between_isWithin (before written rest : List Char) :
    (between before written rest).isWithin = true :=
  decide_eq_true (List.prefix_append (before ++ written) rest).length_le

theorem scanNat_written (n : Nat) (width : Int) (before rest : List Char) :
    (between before (Digits.padded n width) rest).scanNat = some (some n) := by
  rw [scanNat_of_within (between_isWithin before _ rest), between_chars, Digits.readNat_padded]

theorem scanInt_written (value width : Int) (before rest : List Char) :
    (between before (Digits.ofInt value width) rest).scanInt = some (some value) := by
  rw [scanInt_of_within (between_isWithin before _ rest), between_chars, Digits.readInt_ofInt]

end Stretch

namespace RuleText

/-- Writing a list behind a buffer keeps what the buffer holds. -/
theorem appendFrom_succ (position : Nat) (buffer : List Char) (numbers : List Int) :
    appendFrom (position + 1) buffer numbers =
      buffer ++ numbers.flatMap fun number => ',' :: Digits.ofInt number 0 := by
  induction numbers generalizing position buffer with
  | nil => rw [appendFrom, List.flatMap_nil, List.append_nil]
  | cons number rest ih =>
      rw [appendFrom, ih, if_neg (Nat.succ_ne_zero position), Digits.append_eq, List.flatMap_cons]
      simp only [List.append_assoc, List.cons_append, List.nil_append]

theorem numberList_cons (number : Int) (rest : List Int) :
    numberList (number :: rest) =
      Digits.ofInt number 0 ++ rest.flatMap fun later => ',' :: Digits.ofInt later 0 := by
  induction rest generalizing number with
  | nil => rw [List.flatMap_nil, List.append_nil]; rfl
  | cons second others ih =>
      rw [List.flatMap_cons, List.cons_append, ← ih second]
      rfl

theorem appendList_eq (buffer : List Char) (numbers : List Int) :
    appendList buffer numbers = buffer ++ numberList numbers := by
  cases numbers with
  | nil => exact (List.append_nil buffer).symm
  | cons number rest =>
      rw [appendList, appendFrom, appendFrom_succ, if_pos rfl, Digits.append_eq, numberList_cons,
        List.append_assoc]

theorem scanList_written {values : List Int} (nonempty : values ≠ []) (before rest : List Char)
    (key : String) :
    scanList Stretch.scanInt key (Stretch.between before (numberList values) rest) =
      some (.ok values) := by
  have reads : readElements Digits.readInt key (elements ⟨before.length, numberList values⟩) =
      .ok values :=
    readElements_join key nonempty (fun value _ => Digits.readInt_ofInt value 0)
      (fun value _ => (simple_ofInt value 0).not_mem rfl) before.length
  rw [scanList_of_within key (fun part within => Stretch.scanInt_of_within within) _
    (Stretch.between_isWithin before _ rest), Stretch.piece, Stretch.between_chars]
  exact congrArg some reads

/-- What is written behind a buffer is read back wherever it stands.  A number is written as a minus, if it
is negative, and as many digits as it has or as the width asks for. -/
theorem scans_appended (buffer : List Char) :
    (∀ (value : Int) (width : Nat), ∃ digits : List Char,
      let written := if value < 0 then '-' :: digits else digits
      Digits.append buffer value width = buffer ++ written ∧
        digits.all Digits.isDigit = true ∧
        digits.length = max width (Nat.toDigits 10 value.natAbs).length ∧
        ∀ before rest : List Char,
          (Stretch.between before written rest).scanInt = some (some value) ∧
          (0 ≤ value →
            (Stretch.between before written rest).scanNat = some (some value.toNat))) ∧
    ∀ values : List Int, values ≠ [] → ∃ written : List Char,
      appendList buffer values = buffer ++ written ∧
        ∀ (before rest : List Char) (key : String),
          scanList Stretch.scanInt key (Stretch.between before written rest) = some (.ok values) := by
  constructor
  · intro value width
    have written : (if value < 0 then '-' :: Digits.padded value.natAbs width
        else Digits.padded value.natAbs width) = Digits.ofInt value width := rfl
    refine ⟨Digits.padded value.natAbs width, ?_⟩
    simp only [written]
    refine ⟨Digits.append_eq buffer value width,
      List.all_eq_true.mpr fun c member => Digits.isDigit_of_mem_padded member, ?_,
      fun before rest => ⟨Stretch.scanInt_written value width before rest, fun positive => ?_⟩⟩
    · rw [Digits.length_padded, Digits.ofNat_eq_toDigits, Int.toNat_natCast]
    · have size : value.natAbs = value.toNat := by omega
      rw [Digits.ofInt, if_neg (Int.not_lt.mpr positive), Stretch.scanNat_written, size]
  · intro values nonempty
    exact ⟨numberList values, appendList_eq buffer values, scanList_written nonempty⟩

theorem scans_monthDays :
    (∃ digits : List Char,
      0 ≤ (7 : Int) ∧ Digits.append "UNTIL=2024".toList 7 2 = "UNTIL=2024".toList ++ digits ∧
        digits.length = 2 ∧
        (Stretch.between "UNTIL=2024".toList digits "04".toList).scanNat = some (some 7)) ∧
    ∃ written : List Char,
      ([15, -1] : List Int) ≠ [] ∧
        appendList "BYMONTHDAY=".toList [15, -1] = "BYMONTHDAY=".toList ++ written ∧
        scanList Stretch.scanInt "BYMONTHDAY"
          (Stretch.between "BYMONTHDAY=".toList written ";COUNT=3".toList) = some (.ok [15, -1]) := by
  constructor
  · obtain ⟨digits, text, _, length, reads⟩ := (scans_appended "UNTIL=2024".toList).1 7 2
    have positive : 0 ≤ (7 : Int) := by decide
    exact ⟨digits, positive, text, length, (reads _ _).2 positive⟩
  · have nonempty : ([15, -1] : List Int) ≠ [] := by decide
    obtain ⟨written, text, reads⟩ := (scans_appended "BYMONTHDAY=".toList).2 [15, -1] nonempty
    exact ⟨written, nonempty, text, reads _ _ _⟩

end RuleText

end Recurrence
