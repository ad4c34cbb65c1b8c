import Recurrence.Zone.Africa
import Recurrence.Zone.Americas
import Recurrence.Zone.Asia
import Recurrence.Zone.Directory
import Recurrence.Zone.Europe
import Recurrence.Zone.Pacific

namespace Recurrence.Zone.Table

/-! A small directory of zones.

Names are looked up without regard to the case of ASCII letters.  A sign in a name may be written
`_plus_` or `_minus_`, as in names that also serve as file names.  Whatever spelling of a name is looked
up, it can stand in a rule text (`isNameChar_of_find?`).
-/

def histories : List History :=
  [NewYork.history, SaoPaulo.history, London.history, Berlin.history, Tokyo.history,
    Kolkata.history, Kathmandu.history, Sydney.history, LordHowe.history, Apia.history,
    Cairo.history]

def zones : List Zone :=
  utc :: .steady "Etc/GMT+5" (-18000) :: histories.map fun history => .varying history .reader

def replaceAll (piece replacement : List Char) : List Char → List Char
  | [] => []
  | c :: rest =>
      if piece.isPrefixOf (c :: rest) then
        replacement ++ replaceAll piece replacement (rest.drop (piece.length - 1))
      else c :: replaceAll piece replacement rest
  termination_by text => text.length
  decreasing_by
    all_goals simp only [List.length_drop, List.length_cons]; omega

/-- The form of a name that decides whether it is known: signs for their words, small letters. -/
def canonicalName (name : String) : String :=
  String.ofList <| (replaceAll "_minus_".toList ['-']
    (replaceAll "_plus_".toList ['+'] name.toList)).map Char.toLower

/-- The zone of the table with a name.  Names with other than ASCII characters are unknown. -/
def find? (name : String) : Option Zone :=
  if name.toList.all fun c => c.toNat < 128 then
    zones.find? fun zone => zone.name?.map canonicalName == some (canonicalName name)
  else none

theorem find?_name :
    ∀ zone ∈ zones, ∃ name, zone.name? = some name ∧ name ≠ "" ∧ find? name = some zone := by
  decide +kernel

theorem hasReader_of_mem : ∀ zone ∈ zones, zone.hasReader = true := by
  decide +kernel

theorem isNameChar_canonicalName :
    ∀ zone ∈ zones, ∀ name ∈ zone.name?, (canonicalName name).toList.all isNameChar = true := by
  decide +kernel

/-- Characters that are replaced stand in the piece that is replaced. -/
theorem mem_replaceAll {piece replacement text : List Char} {c : Char} (nonempty : piece ≠ [])
    (member : c ∈ text) : c ∈ piece ∨ c ∈ replaceAll piece replacement text := by
  fun_induction replaceAll piece replacement text with
  | case1 => contradiction
  | case2 d rest found ih =>
      obtain ⟨tail, whole⟩ := List.isPrefixOf_iff_prefix.1 found
      have left : rest.drop (piece.length - 1) = tail := by
        cases piece with
        | nil => exact absurd rfl nonempty
        | cons first others =>
            obtain ⟨rfl, rfl⟩ := List.cons.inj whole
            exact List.drop_left' (by simp)
      rw [left] at ih ⊢
      rw [← whole] at member
      rcases List.mem_append.1 member with inPiece | inTail
      · exact .inl inPiece
      · rcases ih inTail with inPiece | later
        · exact .inl inPiece
        · exact .inr (List.mem_append_right _ later)
  | case3 d rest _ ih =>
      rcases List.mem_cons.1 member with rfl | inRest
      · exact .inr List.mem_cons_self
      · rcases ih inRest with inPiece | later
        · exact .inl inPiece
        · exact .inr (List.mem_cons_of_mem _ later)

theorem isNameChar_of_toLower {c : Char} (lower : isNameChar c.toLower = true) :
    isNameChar c = true := by
  unfold Char.toLower at lower
  split at lower
  · next capital =>
      have least : 65 ≤ c.toNat := UInt32.le_iff_toNat_le.1 capital.1
      have greatest : c.toNat ≤ 90 := UInt32.le_iff_toNat_le.1 capital.2
      have noSemicolon : c ≠ ';' := by
        rintro rfl
        exact absurd least (by decide)
      have noColon : c ≠ ':' := by
        rintro rfl
        exact absurd least (by decide)
      simp only [isNameChar, Bool.and_eq_true, decide_eq_true_eq, bne_iff_ne]
      exact ⟨⟨⟨by omega, by omega⟩, noSemicolon⟩, noColon⟩
  · exact lower

/-- The characters of a name are seen in its canonical form, but for the words for signs. -/
theorem isNameChar_of_canonicalName {name : String}
    (canonical : ∀ c ∈ (canonicalName name).toList, isNameChar c = true) :
    ∀ c ∈ name.toList, isNameChar c = true := by
  intro c member
  have plus : "_plus_".toList.all isNameChar = true := by decide
  have minus : "_minus_".toList.all isNameChar = true := by decide
  have withoutPlus := @mem_replaceAll "_plus_".toList ['+'] name.toList c (by decide) member
  rcases withoutPlus with inWord | kept
  · exact List.all_eq_true.1 plus c inWord
  · have withoutMinus := @mem_replaceAll "_minus_".toList ['-'] _ c (by decide) kept
    rcases withoutMinus with inWord | still
    · exact List.all_eq_true.1 minus c inWord
    · refine isNameChar_of_toLower (canonical _ ?_)
      rw [canonicalName, String.toList_ofList]
      exact List.mem_map_of_mem still

theorem mem_of_find? {name : String} {zone : Zone} (found : find? name = some zone) :
    zone ∈ zones := by
  unfold find? at found
  split at found
  · exact List.mem_of_find?_eq_some found
  · contradiction

theorem isNameChar_of_find? {name : String} {zone : Zone} (found : find? name = some zone) :
    ∀ c ∈ name.toList, isNameChar c = true := by
  have member := mem_of_find? found
  unfold find? at found
  split at found
  · have same := List.find?_some found
    simp only [beq_iff_eq, Option.map_eq_some_iff] at same
    obtain ⟨known, isName, equal⟩ := same
    refine isNameChar_of_canonicalName fun c inCanonical => ?_
    rw [← equal] at inCanonical
    exact List.all_eq_true.1 (isNameChar_canonicalName zone member known isName) c inCanonical
  · contradiction

end Table

/-- The directory that a table of a few zones makes. -/
@[reducible] def table : Directory where
  find? := Table.find?
  find?_utc := by decide +kernel
  isNameChar_of_find? := Table.isNameChar_of_find?
  hasReader_of_find? found := Table.hasReader_of_mem _ (Table.mem_of_find? found)
  exists_name_of_find? found := Table.find?_name _ (Table.mem_of_find? found)

end Recurrence.Zone
