import Recurrence.Proofs.Registry.Calls

namespace Recurrence

/-! Which generator is chosen for a rule, whatever calls have been made.

A search ends at the first variant that honors the rule and builds a generator for it.  One that finds
none tells the error of the last variant that was tried.  `Registry.create_registerAll` states this of
every registry that calls can make, together with what the calls make of its lists.
-/

namespace Variant

/-- A variant honors every part that a rule restricts. -/
def Honors (variant : Variant) (rule : Rule) : Prop :=
  ∀ part, rule.restricts part = true → part ∈ variant.honored

theorem ignored_eq_nil_iff {variant : Variant} {rule : Rule} :
    variant.ignored rule = [] ↔ variant.Honors rule := by
  constructor
  · intro none part restricts
    have listed : part ∈ rule.restrictions := List.mem_filter.mpr ⟨Part.mem_all part, restricts⟩
    have kept := List.filter_eq_nil_iff.mp none part listed
    rw [Bool.not_eq_true, Bool.not_eq_false'] at kept
    exact List.contains_iff_mem.mp kept
  · intro honors
    refine List.filter_eq_nil_iff.mpr fun part member => ?_
    have honored : variant.honored.contains part = true :=
      List.contains_iff_mem.mpr (honors part (List.mem_filter.mp member).2)
    rw [honored]
    decide

/-- A variant takes a rule, and this is the generator that it builds. -/
def Accepts (variant : Variant) (rule : Rule) (start : DateTime) (calendar : Calendar)
    (generator : Generator) : Prop :=
  variant.Honors rule ∧ variant.build rule start calendar = .ok generator

/-- A variant is tried for a rule, and this is the error with which it refuses it. -/
def Refuses (variant : Variant) (rule : Rule) (start : DateTime) (calendar : Calendar)
    (error : GeneratorError) : Prop :=
  variant.Honors rule ∧ variant.build rule start calendar = .error (.refused error)

/-- A variant that is tried builds a generator or refuses the rule: no date leaves the calendar. -/
def Stays (variant : Variant) (rule : Rule) (start : DateTime) (calendar : Calendar) : Prop :=
  variant.Honors rule → variant.build rule start calendar ≠ .error .outOfRange

end Variant

namespace Registry

variable {rule : Rule} {start : DateTime} {calendar : Calendar} {variants : List Variant}

/-- The first of some variants that accepts a rule. -/
def ChosenFrom (variants : List Variant) (rule : Rule) (start : DateTime) (calendar : Calendar)
    (variant : Variant) (generator : Generator) : Prop :=
  ∃ before after, variants = before ++ variant :: after ∧
    variant.Accepts rule start calendar generator ∧
    ∀ other ∈ before, ∀ made, ¬other.Accepts rule start calendar made

/-- No variant of a list accepts a rule. -/
def NoneAccepts (variants : List Variant) (rule : Rule) (start : DateTime) (calendar : Calendar) :
    Prop :=
  ∀ variant ∈ variants, ∀ made, ¬variant.Accepts rule start calendar made

/-- The last variant of a list that is tried for a rule refuses it with this error. -/
def LastRefusal (variants : List Variant) (rule : Rule) (start : DateTime) (calendar : Calendar)
    (error : GeneratorError) : Prop :=
  ∃ before variant after, variants = before ++ variant :: after ∧
    variant.Refuses rule start calendar error ∧ ∀ other ∈ after, ¬other.Honors rule

theorem not_accepts_of_refuses {variant : Variant} {error : GeneratorError}
    (refuses : variant.Refuses rule start calendar error) (made : Generator) :
    ¬variant.Accepts rule start calendar made := by
  intro accepts
  have both := refuses.2.symm.trans accepts.2
  contradiction

theorem variant_cases {variant : Variant} (stays : variant.Stays rule start calendar) :
    ¬variant.Honors rule ∨ (∃ made, variant.Accepts rule start calendar made) ∨
      ∃ error, variant.Refuses rule start calendar error := by
  by_cases honors : variant.Honors rule
  · cases built : variant.build rule start calendar with
    | ok made => exact .inr (.inl ⟨made, honors, built⟩)
    | error failure =>
        cases failure with
        | refused error => exact .inr (.inr ⟨error, honors, built⟩)
        | outOfRange => exact absurd built (stays honors)
  · exact .inl honors

section Step

variable {variant : Variant} {error : GeneratorError}

theorem result_of_not_honors (skipped : ¬variant.Honors rule) :
    (search rule start calendar error (variant :: variants)).result =
      (search rule start calendar error variants).result := by
  have ignores : (variant.ignored rule).isEmpty = false :=
    List.isEmpty_eq_false_iff.mpr fun none => skipped (Variant.ignored_eq_nil_iff.mp none)
  simp only [search, ignores, Bool.false_eq_true, if_false]

theorem result_of_refuses {refusal : GeneratorError}
    (refuses : variant.Refuses rule start calendar refusal) :
    (search rule start calendar error (variant :: variants)).result =
      (search rule start calendar refusal variants).result := by
  have honors : variant.ignored rule = [] := Variant.ignored_eq_nil_iff.mpr refuses.1
  simp only [search, honors, List.isEmpty_nil, if_true, refuses.2]

theorem result_of_accepts {made : Generator} (accepts : variant.Accepts rule start calendar made) :
    (search rule start calendar error (variant :: variants)).result = .ok (variant, made) := by
  have honors : variant.ignored rule = [] := Variant.ignored_eq_nil_iff.mpr accepts.1
  simp only [search, honors, List.isEmpty_nil, if_true, accepts.2]

end Step

theorem ChosenFrom.cons {variant other : Variant} {generator : Generator}
    (chosen : ChosenFrom variants rule start calendar variant generator)
    (passed : ∀ made, ¬other.Accepts rule start calendar made) :
    ChosenFrom (other :: variants) rule start calendar variant generator := by
  obtain ⟨before, after, rfl, accepts, first⟩ := chosen
  exact ⟨other :: before, after, rfl, accepts, List.forall_mem_cons.mpr ⟨passed, first⟩⟩

theorem LastRefusal.cons {error : GeneratorError}
    (last : LastRefusal variants rule start calendar error) (other : Variant) :
    LastRefusal (other :: variants) rule start calendar error := by
  obtain ⟨before, variant, after, rfl, refuses, skipped⟩ := last
  exact ⟨other :: before, variant, after, rfl, refuses, skipped⟩

/-- A search comes to the first variant that accepts the rule: those before it are passed over. -/
theorem result_of_chosen {variant : Variant} {generator : Generator}
    (stays : ∀ variant ∈ variants, variant.Stays rule start calendar)
    (chosen : ChosenFrom variants rule start calendar variant generator) (error : GeneratorError) :
    (search rule start calendar error variants).result = .ok (variant, generator) := by
  obtain ⟨before, after, rfl, accepts, passed⟩ := chosen
  induction before generalizing error with
  | nil => exact result_of_accepts accepts
  | cons first rest ih =>
      obtain ⟨firstStays, restStay⟩ := List.forall_mem_cons.mp stays
      obtain ⟨firstPassed, restPassed⟩ := List.forall_mem_cons.mp passed
      rw [List.cons_append]
      rcases variant_cases firstStays with skipped | ⟨made, taken⟩ | ⟨refusal, refuses⟩
      · rw [result_of_not_honors skipped]
        exact ih error restStay restPassed
      · exact absurd taken (firstPassed made)
      · rw [result_of_refuses refuses]
        exact ih refusal restStay restPassed

/-- A search that finds nothing tells the last refusal; if no variant was tried, the error with which
it began. -/
theorem result_of_noneAccepts (stays : ∀ variant ∈ variants, variant.Stays rule start calendar)
    (none : NoneAccepts variants rule start calendar) (error : GeneratorError) :
    ∃ told, (search rule start calendar error variants).result = .error (.refused told) ∧
      (LastRefusal variants rule start calendar told ∨
        (∀ variant ∈ variants, ¬variant.Honors rule) ∧ told = error) := by
  induction variants generalizing error with
  | nil => exact ⟨error, rfl, .inr ⟨nofun, rfl⟩⟩
  | cons first rest ih =>
      obtain ⟨firstStays, restStay⟩ := List.forall_mem_cons.mp stays
      obtain ⟨firstPassed, restPassed⟩ := List.forall_mem_cons.mp none
      rcases variant_cases firstStays with skipped | ⟨made, taken⟩ | ⟨refusal, refuses⟩
      · rw [result_of_not_honors skipped]
        obtain ⟨told, ends, last | ⟨untried, same⟩⟩ := ih restStay restPassed error
        · exact ⟨told, ends, .inl (last.cons first)⟩
        · exact ⟨told, ends, .inr ⟨List.forall_mem_cons.mpr ⟨skipped, untried⟩, same⟩⟩
      · exact absurd taken (firstPassed made)
      · rw [result_of_refuses refuses]
        obtain ⟨told, ends, last | ⟨untried, rfl⟩⟩ := ih restStay restPassed refusal
        · exact ⟨told, ends, .inl (last.cons first)⟩
        · exact ⟨told, ends, .inl ⟨[], first, rest, rfl, refuses, untried⟩⟩

theorem exists_chosen_or_noneAccepts (variants : List Variant) :
    (∃ variant generator, ChosenFrom variants rule start calendar variant generator) ∨
      NoneAccepts variants rule start calendar := by
  induction variants with
  | nil => exact .inr nofun
  | cons first rest ih =>
      by_cases accepts : ∃ made, first.Accepts rule start calendar made
      · obtain ⟨made, accepts⟩ := accepts
        exact .inl ⟨first, made, [], rest, rfl, accepts, nofun⟩
      · have passed : ∀ made, ¬first.Accepts rule start calendar made := not_exists.mp accepts
        rcases ih with ⟨variant, generator, chosen⟩ | none
        · exact .inl ⟨variant, generator, chosen.cons passed⟩
        · exact .inr (List.forall_mem_cons.mpr ⟨passed, none⟩)

/-- What a search finds is what its list says. -/
theorem result_eq_ok_iff {variant : Variant} {generator : Generator} {error : GeneratorError}
    (stays : ∀ variant ∈ variants, variant.Stays rule start calendar) :
    (search rule start calendar error variants).result = .ok (variant, generator) ↔
      ChosenFrom variants rule start calendar variant generator := by
  constructor
  · intro found
    rcases @exists_chosen_or_noneAccepts rule start calendar variants with ⟨first, made, chosen⟩ | none
    · rw [result_of_chosen stays chosen] at found
      cases found
      exact chosen
    · obtain ⟨told, ends, _⟩ := result_of_noneAccepts stays none error
      rw [ends] at found
      contradiction
  · exact fun chosen => result_of_chosen stays chosen error

/-- A search fails exactly if no variant accepts the rule. -/
theorem exists_error_iff {error : GeneratorError}
    (stays : ∀ variant ∈ variants, variant.Stays rule start calendar) :
    (∃ failure, (search rule start calendar error variants).result = .error failure) ↔
      NoneAccepts variants rule start calendar := by
  constructor
  · intro fails
    obtain ⟨failure, ends⟩ := fails
    rcases @exists_chosen_or_noneAccepts rule start calendar variants with ⟨first, made, chosen⟩ | none
    · rw [result_of_chosen stays chosen] at ends
      contradiction
    · exact none
  · intro none
    obtain ⟨told, ends, _⟩ := result_of_noneAccepts stays none error
    exact ⟨_, ends⟩

/-- After any calls no variant stands twice in a list and none that was registered is lost; the last
call for a frequency decides which variant is first or last in its list, the others keep their order,
and other lists are as they were.  In each such registry the first variant that accepts a rule
generates it.  If there is none, the error is that of the last variant that was tried, or says that no
variant accepts the rule when none was tried. -/
theorem create_registerAll :
    (∀ calls frequency, Variant.Distinct ((initial.registerAll calls).variants frequency)) ∧
    (∀ earlier later frequency, ∀ held ∈ (initial.registerAll earlier).variants frequency,
      ∃ variant ∈ (initial.registerAll (earlier ++ later)).variants frequency,
        variant.same held = true) ∧
    (∀ earlier call later, (∀ other ∈ later, other.frequency ≠ call.frequency) →
      (initial.registerAll (earlier ++ call :: later)).variants call.frequency =
        call.variant.placed call.preferred
          ((initial.registerAll earlier).variants call.frequency)) ∧
    (∀ earlier later frequency, (∀ call ∈ later, call.frequency ≠ frequency) →
      (initial.registerAll (earlier ++ later)).variants frequency =
        (initial.registerAll earlier).variants frequency) ∧
    ∀ (calls : List Registration) (rule : Rule) (start : DateTime) (calendar : Calendar),
      let registry := initial.registerAll calls
      let variants := registry.variants rule.frequency
      (∀ variant ∈ variants, variant.Stays rule start calendar) →
        (∀ variant generator, (registry.create rule start calendar).result = .ok (variant, generator) ↔
          ChosenFrom variants rule start calendar variant generator) ∧
        ((∃ failure, (registry.create rule start calendar).result = .error failure) ↔
          NoneAccepts variants rule start calendar) ∧
        (NoneAccepts variants rule start calendar →
          ∃ told, (registry.create rule start calendar).result = .error (.refused told) ∧
            (LastRefusal variants rule start calendar told ∨
              (∀ variant ∈ variants, ¬variant.Honors rule) ∧ told = noneAccepts rule.frequency)) := by
  refine ⟨?_, ?_, ?_, ?_, ?_⟩
  · exact fun calls frequency => distinct_registerAll (distinct_initial frequency) calls
  · intro earlier later frequency held member
    rw [registerAll_append]
    exact exists_same_registerAll member later
  · exact fun earlier call later isLast => variants_registerAll_last earlier call isLast
  · intro earlier later frequency others
    rw [registerAll_append]
    exact variants_registerAll_of_ne others
  · intro calls rule start calendar registry variants stays
    exact ⟨fun variant generator => result_eq_ok_iff stays, exists_error_iff stays,
      fun none => result_of_noneAccepts stays none _⟩

/-- The expander comes first for weekly rules, then the weekly walk is tried for daily ones. -/
def twoCalls : List Registration := [⟨.weekly, .expanding, true⟩, ⟨.daily, .weekly, true⟩]

theorem create_registerAll_twoCalls :
    (∀ call ∈ twoCalls.drop 1, call.frequency ≠ .weekly) ∧
    (initial.registerAll twoCalls).variants .weekly =
      Variant.expanding.placed true ((initial.registerAll []).variants .weekly) ∧
    (∀ variant ∈ (initial.registerAll twoCalls).variants .daily,
      variant.Stays { frequency := .daily } (.naive ⟨0, by decide⟩) {}) ∧
    ∃ generator,
      ((initial.registerAll twoCalls).create { frequency := .daily } (.naive ⟨0, by decide⟩) {}).result =
        .ok (.expanding, generator) := by
  have others : ∀ call ∈ twoCalls.drop 1, call.frequency ≠ .weekly := by
    intro call member
    rw [List.mem_singleton.mp member]
    decide
  have listed : (initial.registerAll twoCalls).variants .daily = [.weekly, .expanding] := rfl
  have honors (variant : Variant) : variant.Honors { frequency := .daily } := by
    intro part restricts
    cases part <;> contradiction
  have refuses (made : Generator) :
      ¬Variant.weekly.Accepts { frequency := .daily } (.naive ⟨0, by decide⟩) {} made :=
    not_accepts_of_refuses ⟨honors .weekly, rfl⟩ made
  have stays : ∀ variant ∈ (initial.registerAll twoCalls).variants .daily,
      variant.Stays { frequency := .daily } (.naive ⟨0, by decide⟩) {} := by
    rw [listed]
    exact List.forall_mem_cons.mpr ⟨nofun, List.forall_mem_singleton.mpr nofun⟩
  obtain ⟨_, _, placed, _, choice⟩ := create_registerAll
  have chosen := (choice twoCalls { frequency := .daily } (.naive ⟨0, by decide⟩) {} stays).1
  exact ⟨others, placed [] ⟨.weekly, .expanding, true⟩ [⟨.daily, .weekly, true⟩] others, stays, _,
    (chosen .expanding _).mpr ⟨[.weekly], [], rfl, ⟨honors .expanding, rfl⟩,
      List.forall_mem_singleton.mpr refuses⟩⟩

end Registry

end Recurrence
