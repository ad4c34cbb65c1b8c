import Mathlib.Algebra.Group.Nat.Defs
import Recurrence.Digits

namespace Recurrence.Digits

/-! Which characters a written number has, and how many.

A number below a power of ten fills the width of that power exactly (`length_padded_of_lt`), so the
digits of dates stand at fixed places.
-/

theorem isDigit_of_mem_ofNat {c : Char} {n : Nat} (member : c ∈ ofNat n) : isDigit c = true := by
  induction n using Nat.strongRecOn with
  | _ n ih =>
      unfold ofNat at member
      split at member
      · next small =>
          rw [List.mem_singleton.1 member]
          exact isDigit_digitChar small
      · next large =>
          rcases List.mem_append.1 member with front | last
          · exact ih (n / 10) (by omega) front
          · rw [List.mem_singleton.1 last]
            exact isDigit_digitChar (Nat.mod_lt _ (by decide))

theorem isDigit_of_mem_padded {c : Char} {n : Nat} {width : Int} (member : c ∈ padded n width) :
    isDigit c = true := by
  rcases List.mem_append.1 member with zero | digit
  · rw [(List.mem_replicate.1 zero).2]
    rfl
  · exact isDigit_of_mem_ofNat digit

theorem eq_minus_or_isDigit {c : Char} {value width : Int} (member : c ∈ ofInt value width) :
    c = '-' ∨ isDigit c = true := by
  unfold ofInt at member
  split at member
  · rcases List.mem_cons.1 member with minus | digit
    · exact .inl minus
    · exact .inr (isDigit_of_mem_padded digit)
  · exact .inr (isDigit_of_mem_padded member)

theorem length_ofNat_le {n count : Nat} (small : n < 10 ^ (count + 1)) :
    (ofNat n).length ≤ count + 1 := by
  induction count generalizing n with
  | zero =>
      have digit : n < 10 := by simpa using small
      rw [ofNat, if_pos digit]
      exact Nat.le_refl 1
  | succ count ih =>
      unfold ofNat
      split
      · exact Nat.succ_le_succ (Nat.zero_le _)
      · have smaller : n / 10 < 10 ^ (count + 1) := by
          rw [Nat.div_lt_iff_lt_mul (by decide), ← Nat.pow_succ]
          exact small
        have front := ih smaller
        simp only [List.length_append, List.length_singleton]
        omega

/-- A number below a power of ten is padded to the width of that power. -/
theorem length_padded_of_lt {n count : Nat} (small : n < 10 ^ (count + 1)) :
    (padded n (count + 1 : Nat)).length = count + 1 := by
  have bound := length_ofNat_le small
  rw [length_padded]
  omega

theorem readInt_padded (n : Nat) (width : Int) : readInt (padded n width) = some (n : Int) := by
  have written : padded n width = ofInt n width := by
    rw [ofInt, if_neg (by omega)]
    rfl
  rw [written, readInt_ofInt]

end Recurrence.Digits
