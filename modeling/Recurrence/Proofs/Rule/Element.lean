import Recurrence.Rule

namespace Recurrence

/-! The elements of the lists in a rule text, cut out of it: numbers of a domain, and weekdays with an
ordinal.

`DayEntry.read_text` says that every valid entry is read back from its text.
-/

def Domain.read (domain : Domain) (chars : List Char) : Option Int :=
  (Digits.readInt chars).filter domain.has

namespace DayEntry

def readOrdinal (chars : List Char) : Option Int :=
  (match chars with
    | '+' :: digits => (Digits.readNat digits).map fun (n : Nat) => (n : Int)
    | _ => Digits.readInt chars).filter Domain.ordinals.has

def read (chars : List Char) : Option DayEntry :=
  if chars.length < 2 then none
  else
    let ordinal := chars.take (chars.length - 2)
    match Weekday.ofCode? (String.ofList (chars.drop (chars.length - 2))) with
    | none => none
    | some weekday =>
        if ordinal.isEmpty then some (every weekday)
        else (readOrdinal ordinal).map fun number => ⟨some number, weekday⟩

theorem readOrdinal_ofInt {ordinal : Int} (inside : Domain.ordinals.has ordinal = true) :
    readOrdinal (Digits.ofInt ordinal 0) = some ordinal := by
  unfold readOrdinal
  split
  · next digits same =>
      have read := Digits.readInt_ofInt ordinal 0
      rw [same] at read
      have notDigit : Digits.isDigit '+' = false := by decide
      simp [Digits.readInt, Digits.readNat, Digits.readFrom, notDigit] at read
  · rw [Digits.readInt_ofInt]
    simp [Option.filter, inside]

theorem ofInt_ne_nil (value : Int) : Digits.ofInt value 0 ≠ [] := by
  unfold Digits.ofInt
  split
  · simp
  · exact Digits.padded_ne_nil _ _

/-- Reading the text of a valid entry gives the entry back. -/
theorem read_text {entry : DayEntry} (valid : entry.Valid) :
    read entry.text.toList = some entry := by
  obtain ⟨ordinal, weekday⟩ := entry
  have size : weekday.code.toList.length = 2 := by cases weekday <;> rfl
  cases ordinal with
  | none =>
      have code : String.ofList weekday.code.toList = weekday.code := by simp
      simp only [text, read, size]
      simp [Weekday.ofCode?_code, every]
  | some number =>
      have inside : Domain.ordinals.has number = true := valid number rfl
      have shape : (text ⟨some number, weekday⟩).toList =
          Digits.ofInt number 0 ++ weekday.code.toList := by
        simp [text, Digits.text]
      have length : (Digits.ofInt number 0 ++ weekday.code.toList).length - 2 =
          (Digits.ofInt number 0).length := by
        simp [List.length_append, size]
      unfold read
      rw [shape, length, if_neg (by simp [List.length_append, size])]
      simp [Weekday.ofCode?_code, ofInt_ne_nil, readOrdinal_ofInt inside]

end DayEntry

end Recurrence
