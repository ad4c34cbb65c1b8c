import Recurrence.Registry

namespace Recurrence

/-! Registries after any calls.

A call of `Registry.register` puts a variant at one end of the list of its frequency
(`Registry.variants_register`).  What one call keeps a run of calls keeps: no variant stands twice in a
list, and none is lost.
-/

namespace Variant

variable {first second third : Variant}

theorem same_iff : first.same second = true ↔ first.name = second.name ∧ first.mark = second.mark := by
  rw [same, Bool.and_eq_true, beq_iff_eq, beq_iff_eq]

@[simp] theorem same_self (variant : Variant) : variant.same variant = true := same_iff.mpr ⟨rfl, rfl⟩

theorem same_comm (first second : Variant) : first.same second = second.same first := by
  rw [Bool.eq_iff_iff, same_iff, same_iff, eq_comm, @eq_comm _ first.mark]

theorem same_trans (before : first.same second = true) (after : second.same third = true) :
    first.same third = true := by
  obtain ⟨name, mark⟩ := same_iff.mp before
  obtain ⟨nextName, nextMark⟩ := same_iff.mp after
  exact same_iff.mpr ⟨name.trans nextName, mark.trans nextMark⟩

/-- No variant stands twice in a list. -/
def Distinct (variants : List Variant) : Prop :=
  variants.Pairwise fun first second => first.same second = false

/-- The variants of a list that were not declared as the given one, in their order. -/
def without (variant : Variant) (variants : List Variant) : List Variant :=
  variants.filter fun other => !other.same variant

/-- A variant put before or behind the others of a list. -/
def placed (variant : Variant) (preferred : Bool) (variants : List Variant) : List Variant :=
  if preferred then variant :: variant.without variants else variant.without variants ++ [variant]

variable {variant : Variant} {preferred : Bool} {variants : List Variant}

theorem mem_without {other : Variant} :
    other ∈ variant.without variants ↔ other ∈ variants ∧ other.same variant = false := by
  rw [without, List.mem_filter, Bool.not_eq_true']

theorem mem_placed {other : Variant} :
    other ∈ variant.placed preferred variants ↔ other = variant ∨ other ∈ variant.without variants := by
  cases preferred with
  | true => exact List.mem_cons
  | false =>
      change other ∈ variant.without variants ++ [variant] ↔ _
      rw [List.mem_append, List.mem_singleton, or_comm]

theorem Distinct.placed (distinct : Distinct variants) (variant : Variant) (preferred : Bool) :
    Distinct (variant.placed preferred variants) := by
  have others : Distinct (variant.without variants) := List.Pairwise.filter _ distinct
  cases preferred with
  | true =>
      refine List.pairwise_cons.mpr ⟨fun other member => ?_, others⟩
      rw [same_comm]
      exact (mem_without.mp member).2
  | false =>
      refine List.pairwise_append.mpr ⟨others, List.pairwise_singleton _ _, ?_⟩
      intro other member last isLast
      rw [List.mem_singleton.mp isLast]
      exact (mem_without.mp member).2

/-- Whatever is in a list stays in it when a variant is put to one of its ends. -/
theorem exists_same_placed {held : Variant} (member : held ∈ variants) :
    ∃ other ∈ variant.placed preferred variants, other.same held = true := by
  cases moved : held.same variant with
  | true =>
      rw [same_comm] at moved
      exact ⟨variant, mem_placed.mpr (.inl rfl), moved⟩
  | false => exact ⟨held, mem_placed.mpr (.inr (mem_without.mpr ⟨member, moved⟩)), same_self held⟩

end Variant

/-- A call that registers a variant for a frequency. -/
structure Registration where
  frequency : Frequency
  variant : Variant
  preferred : Bool

namespace Registry

theorem lookup_filter_of_ne {frequency other : Frequency} (differs : other ≠ frequency)
    (entries : List (Frequency × List Variant)) :
    (entries.filter fun entry => entry.1 != frequency).lookup other = entries.lookup other := by
  induction entries with
  | nil => rfl
  | cons entry rest ih =>
      obtain ⟨key, variants⟩ := entry
      by_cases removed : key = frequency
      · have passed : (other == key) = false := beq_eq_false_iff_ne.mpr (removed ▸ differs)
        rw [List.filter_cons, if_neg (by simp [removed]), ih, List.lookup_cons, passed]
      · rw [List.filter_cons, if_pos (by simp [removed]), List.lookup_cons, List.lookup_cons, ih]

@[simp] theorem variants_set_self (registry : Registry) (frequency : Frequency)
    (variants : List Variant) : (registry.set frequency variants).variants frequency = variants := by
  rw [Registry.variants, set, List.lookup_cons_self, Option.getD_some]

theorem variants_set_of_ne {frequency other : Frequency} (differs : other ≠ frequency)
    (registry : Registry) (variants : List Variant) :
    (registry.set frequency variants).variants other = registry.variants other := by
  have passed : (other == frequency) = false := beq_eq_false_iff_ne.mpr differs
  rw [Registry.variants, set, List.lookup_cons, passed]
  exact congrArg (Option.getD · []) (lookup_filter_of_ne differs registry.entries)

/-- A call puts its variant to one end of the list of its frequency and touches no other list. -/
theorem variants_register (registry : Registry) (frequency : Frequency) (variant : Variant)
    (preferred : Bool) (other : Frequency) :
    (registry.register frequency variant preferred).variants other =
      if other = frequency then variant.placed preferred (registry.variants frequency)
      else registry.variants other := by
  split
  · next same =>
      rw [same, register, variants_set_self]
      rfl
  · next differs => rw [register, variants_set_of_ne differs]

/-- A registry after some calls. -/
def registerAll (registry : Registry) (calls : List Registration) : Registry :=
  calls.foldl (fun registry call => registry.register call.frequency call.variant call.preferred)
    registry

theorem registerAll_append (registry : Registry) (earlier later : List Registration) :
    registry.registerAll (earlier ++ later) = (registry.registerAll earlier).registerAll later :=
  List.foldl_append

variable {registry : Registry} {frequency : Frequency} {calls : List Registration}

theorem distinct_register (distinct : Variant.Distinct (registry.variants frequency))
    (call : Registration) :
    Variant.Distinct
      ((registry.register call.frequency call.variant call.preferred).variants frequency) := by
  rw [variants_register]
  split
  · next same => exact (same ▸ distinct).placed call.variant call.preferred
  · exact distinct

theorem distinct_registerAll (distinct : Variant.Distinct (registry.variants frequency))
    (calls : List Registration) :
    Variant.Distinct ((registry.registerAll calls).variants frequency) := by
  induction calls generalizing registry with
  | nil => exact distinct
  | cons call rest ih => exact ih (distinct_register distinct call)

theorem distinct_initial (frequency : Frequency) :
    Variant.Distinct (initial.variants frequency) := by
  cases frequency with
  | weekly =>
      have listed : initial.variants .weekly = [.weekly, .expanding] := rfl
      have differ : Variant.weekly.same .expanding = false := by decide
      rw [listed]
      exact List.pairwise_pair.mpr differ
  | _ => exact List.pairwise_singleton _ _

theorem exists_same_register {held : Variant} (member : held ∈ registry.variants frequency)
    (call : Registration) :
    ∃ variant ∈ (registry.register call.frequency call.variant call.preferred).variants frequency,
      variant.same held = true := by
  rw [variants_register]
  split
  · next same => exact Variant.exists_same_placed (same ▸ member)
  · exact ⟨held, member, Variant.same_self held⟩

/-- A variant that is registered is so after any calls. -/
theorem exists_same_registerAll {held : Variant} (member : held ∈ registry.variants frequency)
    (calls : List Registration) :
    ∃ variant ∈ (registry.registerAll calls).variants frequency, variant.same held = true := by
  induction calls generalizing registry held with
  | nil => exact ⟨held, member, Variant.same_self held⟩
  | cons call rest ih =>
      obtain ⟨moved, kept, same⟩ := exists_same_register member call
      obtain ⟨variant, listed, again⟩ := ih kept
      exact ⟨variant, listed, Variant.same_trans again same⟩

/-- Calls for other frequencies leave a list as it is. -/
theorem variants_registerAll_of_ne (others : ∀ call ∈ calls, call.frequency ≠ frequency) :
    (registry.registerAll calls).variants frequency = registry.variants frequency := by
  induction calls generalizing registry with
  | nil => rfl
  | cons call rest ih =>
      obtain ⟨first, later⟩ := List.forall_mem_cons.mp others
      calc (registry.registerAll (call :: rest)).variants frequency
          = (registry.register call.frequency call.variant call.preferred).variants frequency :=
            ih later
        _ = registry.variants frequency := by rw [variants_register, if_neg first.symm]

/-- The last call for a frequency decides which variant stands first or last in its list. -/
theorem variants_registerAll_last (earlier : List Registration) (call : Registration)
    {later : List Registration} (isLast : ∀ other ∈ later, other.frequency ≠ call.frequency) :
    (registry.registerAll (earlier ++ call :: later)).variants call.frequency =
      call.variant.placed call.preferred ((registry.registerAll earlier).variants call.frequency) := by
  have opened : registry.registerAll (earlier ++ call :: later) =
      ((registry.registerAll earlier).register call.frequency call.variant call.preferred).registerAll
        later :=
    registerAll_append registry earlier (call :: later)
  rw [opened, variants_registerAll_of_ne isLast, variants_register, if_pos rfl]

end Registry

end Recurrence
