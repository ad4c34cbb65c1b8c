import Recurrence.Zone.Directory

namespace Recurrence.Zone

/-! Zones that are found by name.

Such a zone is `Listed`.  It has a reader and is found under its own name, which can stand in a rule text
as every name can under which there is a zone (`isNameChar_of_resolve?`).
-/

variable [Directory] {zone : Zone} {name : String}

def Listed (zone : Zone) : Prop := ∃ name, resolve? name = some zone

theorem find?_of_resolve? (found : resolve? name = some zone) :
    name.isEmpty = false ∧ Directory.find? name = some zone := by
  unfold resolve? at found
  split at found
  · contradiction
  · next filled => exact ⟨Bool.eq_false_iff.mpr filled, found⟩

theorem isNameChar_of_resolve? (found : resolve? name = some zone) :
    ∀ c ∈ name.toList, isNameChar c = true :=
  Directory.isNameChar_of_find? (find?_of_resolve? found).2

theorem resolve?_utc : resolve? "UTC" = some utc := by
  rw [resolve?, if_neg (by decide), Directory.find?_utc]

namespace Listed

theorem hasReader (listed : zone.Listed) : zone.hasReader = true := by
  obtain ⟨name, found⟩ := listed
  exact Directory.hasReader_of_find? (find?_of_resolve? found).2

theorem exists_name (listed : zone.Listed) :
    ∃ known, zone.name? = some known ∧ resolve? known = some zone := by
  obtain ⟨name, found⟩ := listed
  obtain ⟨known, isName, filled, again⟩ :=
    Directory.exists_name_of_find? (find?_of_resolve? found).2
  have named : ¬known.isEmpty = true := by simpa using filled
  exact ⟨known, isName, by rw [resolve?, if_neg named, again]⟩

/-- A listed zone is found under its own name. -/
theorem resolve? (listed : zone.Listed) (isName : zone.name? = some name) :
    Zone.resolve? name = some zone := by
  obtain ⟨known, same, found⟩ := listed.exists_name
  rw [isName, Option.some.injEq] at same
  rw [same]
  exact found

end Listed

end Recurrence.Zone
