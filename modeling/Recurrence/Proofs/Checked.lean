import Recurrence.Checked

namespace Recurrence

/-! When checked data is good.

Data that is put together from checked parts is good exactly if every part is, and its issues are those of
the parts, one after another.
-/

namespace Checked

variable {α β : Type}

def Good (checked : Checked α) : Prop := ∃ value, checked = .good value

theorem good_good (value : α) : (good value).Good := ⟨value, rfl⟩

theorem not_good_bad (issues : List Issue) : ¬(bad issues : Checked α).Good := by
  intro good
  obtain ⟨value, same⟩ := good
  contradiction

theorem map_eq_good_iff {f : α → β} {checked : Checked α} {value : β} :
    f <$> checked = good value ↔ ∃ part, checked = good part ∧ f part = value := by
  cases checked with
  | good part => simp [Functor.map, map]
  | bad issues => simp [Functor.map, map]

theorem map_eq_good_iff_of_injective {f : α → β} (injective : Function.Injective f)
    {checked : Checked α} {part : α} : f <$> checked = good (f part) ↔ checked = good part := by
  rw [map_eq_good_iff]
  constructor
  · intro mapped
    obtain ⟨other, same, equal⟩ := mapped
    rw [same, injective equal]
  · intro same
    exact ⟨part, same, rfl⟩

theorem seq_eq_good_iff {f : Checked (α → β)} {argument : Checked α} {value : β} :
    f <*> argument = good value ↔
      ∃ function part, f = good function ∧ argument = good part ∧ function part = value := by
  cases f <;> cases argument <;> simp [Seq.seq, apply]

theorem good_map {f : α → β} {checked : Checked α} : (f <$> checked).Good ↔ checked.Good := by
  cases checked with
  | good part => exact iff_of_true (good_good _) (good_good _)
  | bad issues => exact iff_of_false (not_good_bad _) (not_good_bad _)

theorem good_seq {f : Checked (α → β)} {argument : Checked α} :
    (f <*> argument).Good ↔ f.Good ∧ argument.Good := by
  cases f <;> cases argument <;> simp [Seq.seq, apply, Good]

theorem issues_map (f : α → β) (checked : Checked α) : (f <$> checked).issues = checked.issues := by
  cases checked <;> rfl

theorem within_eq_good_iff {step : Step} {checked : Checked α} {value : α} :
    checked.within step = good value ↔ checked = good value := by
  cases checked <;> simp [within]

theorem good_within {step : Step} {checked : Checked α} :
    (checked.within step).Good ↔ checked.Good :=
  exists_congr fun _ => within_eq_good_iff

theorem within_map (step : Step) (f : α → β) (checked : Checked α) :
    (f <$> checked).within step = f <$> checked.within step := by
  cases checked <;> rfl

theorem all_map {check : Value → Checked α} {write : α → Value} {values : List α}
    (undone : ∀ value ∈ values, check (write value) = .good value) (position : Nat) :
    Checked.all check position (values.map write) = .good values := by
  induction values generalizing position with
  | nil => rfl
  | cons value rest ih =>
      obtain ⟨first, others⟩ := List.forall_mem_cons.1 undone
      simp only [List.map_cons, Checked.all, first, ih others]
      rfl

end Checked

namespace Value

theorem integerFrom_int {least number : Int} (above : least ≤ number) :
    integerFrom least (.int number) = .good number := by
  simp only [integerFrom, integer, Checked.andThen, if_neg (Int.not_lt.2 above)]

theorem le_of_integerFrom {least number : Int} {value : Value}
    (read : integerFrom least value = .good number) : least ≤ number := by
  simp only [integerFrom, Checked.andThen] at read
  split at read
  · split at read
    · contradiction
    · next notLess =>
        cases read
        exact Int.not_lt.1 notLess
  · contradiction

/-- Checking an entry and writing what was found is one check. -/
theorem optional_map {α β : Type} (f : α → β) (name : String) (default : α)
    (check : Value → Checked α) (entries : List (String × Value)) :
    optional name (f default) (fun value => f <$> check value) entries =
      f <$> optional name default check entries := by
  unfold optional
  split
  · exact Checked.within_map _ _ _
  · rfl

end Value

end Recurrence
