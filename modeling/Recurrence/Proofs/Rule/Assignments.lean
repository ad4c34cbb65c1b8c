import Recurrence.Proofs.Rule.Agreement
import Recurrence.Proofs.Rule.Grammar
import Recurrence.Proofs.Rule.Understood

namespace Recurrence

/-! What the assignments of a rule text say of the rule.

Every key has a field of its own, but for COUNT and UNTIL, which share the end.  An assignment sets its
field to what its value spells and keeps all others (`RuleText.assign_eq_ok`).  So the rule after a run
has in every field what the one assignment of that field says (`RuleText.understood_iff`).
-/

namespace Rule

inductive Field
  | ending
  | interval
  | part (part : Part)
deriving DecidableEq

/-- Two rules have the same in a field. -/
def SameAt (source rule : Rule) : Field → Prop
  | .ending => source.ending = rule.ending
  | .interval => source.interval = rule.interval
  | .part part => source.AgreesOn rule part

/-- Takes one field over from another rule. -/
def take (source rule : Rule) : Field → Rule
  | .ending => { rule with ending := source.ending }
  | .interval => { rule with interval := source.interval }
  | .part part => source.adopt rule part

variable {source rule : Rule} {field other : Field}

theorem SameAt.symm (same : source.SameAt rule field) : rule.SameAt source field := by
  cases field with
  | part part => exact ⟨same.1.symm, fun isWeekday => (same.2 isWeekday).symm⟩
  | _ => exact Eq.symm same

theorem SameAt.trans {last : Rule} (first : source.SameAt rule field)
    (second : rule.SameAt last field) : source.SameAt last field := by
  cases field with
  | part part =>
      exact ⟨first.1.trans second.1, fun isWeekday => (first.2 isWeekday).trans (second.2 isWeekday)⟩
  | _ => exact Eq.trans first second

theorem sameAt_refl (rule : Rule) (field : Field) : rule.SameAt rule field := by
  cases field with
  | part part => exact ⟨rfl, fun _ => rfl⟩
  | _ => rfl

theorem sameAt_take (source rule : Rule) (field : Field) :
    source.SameAt (source.take rule field) field := by
  cases field with
  | part part => exact agreesOn_adopt_self source rule part
  | _ => rfl

theorem agreesOn_adopt_of_ne {part another : Part} (differ : another ≠ part) :
    (source.adopt rule part).AgreesOn rule another := by
  cases part <;> cases another <;> first
    | exact absurd rfl differ
    | exact ⟨rfl, fun _ => rfl⟩
    | exact ⟨rfl, nofun⟩

theorem sameAt_take_of_ne (differ : other ≠ field) : (source.take rule field).SameAt rule other := by
  cases field with
  | part part =>
      cases other with
      | part another => exact agreesOn_adopt_of_ne fun same => differ (congrArg Field.part same)
      | _ => cases part <;> rfl
  | _ =>
      cases other with
      | part another => cases another <;> exact ⟨rfl, fun _ => rfl⟩
      | _ => first | rfl | exact absurd rfl differ

theorem frequency_take (source rule : Rule) (field : Field) :
    (source.take rule field).frequency = rule.frequency := by
  cases field with
  | part part => cases part <;> rfl
  | _ => rfl

theorem eq_of_sameAt (frequency : source.frequency = rule.frequency)
    (same : ∀ field, source.SameAt rule field) : source = rule :=
  eq_of_agreesOn frequency (same .interval) (same .ending) fun part => same (.part part)

/-- Taking a field over from a rule that differs at most there gives that rule. -/
theorem take_eq_self (frequency : source.frequency = rule.frequency)
    (same : ∀ other, other ≠ field → source.SameAt rule other) : source.take rule field = source := by
  refine eq_of_sameAt ((frequency_take source rule field).trans frequency.symm) fun other => ?_
  by_cases isField : other = field
  · rw [isField]
    exact (sameAt_take source rule field).symm
  · exact (sameAt_take_of_ne isField).trans (same other isField).symm

end Rule

namespace RuleText

section Results

variable {ε ε' α β : Type}

theorem mapError_eq_ok {name : ε → ε'} {result : Except ε α} {value : α} :
    result.mapError name = .ok value ↔ result = .ok value := by
  cases result with
  | ok other => rw [mapError_ok, Except.ok.injEq, Except.ok.injEq]
  | error failure => exact ⟨nofun, nofun⟩

theorem map_eq_ok {f : α → β} {result : Except ε α} {value : β} :
    result.map f = .ok value ↔ ∃ before, result = .ok before ∧ f before = value := by
  cases result with
  | ok before => simp [Except.map]
  | error failure => simp [Except.map]

theorem map_eq_error {f : α → β} {result : Except ε α} {failure : ε} :
    result.map f = .error failure ↔ result = .error failure := by
  cases result with
  | ok before => exact ⟨nofun, nofun⟩
  | error other => simp [Except.map]

theorem bind_eq_ok {further : α → Except ε β} {result : Except ε α} {value : β} :
    result >>= further = .ok value ↔ ∃ before, result = .ok before ∧ further before = .ok value := by
  cases result with
  | ok before => simp [bind, Except.bind]
  | error failure => simp [bind, Except.bind]

theorem bind_eq_error {further : α → Except ε β} {result : Except ε α} {failure : ε} :
    result >>= further = .error failure ↔
      result = .error failure ∨ ∃ before, result = .ok before ∧ further before = .error failure := by
  cases result with
  | ok before => simp [bind, Except.bind]
  | error other => simp [bind, Except.bind]

end Results

/-- The field that an assignment sets. -/
def Key.field : Key → Rule.Field
  | .lastDate => .ending
  | .count => .ending
  | .interval => .interval
  | .restriction part => .part part

theorem checkEnding_eq_ok {rule : Rule} {name : String} {start : Nat} {done : Unit} :
    checkEnding rule name start = .ok done ↔ rule.ending = .never := by
  cases ends : rule.ending <;> simp [checkEnding, ends, Ending.isNever]

theorem Key.eq_or_ends {key other : Key} (same : key.field = other.field) :
    key = other ∨ other.field = .ending := by
  cases key <;> cases other <;> first
    | exact .inl rfl
    | exact .inr rfl
    | exact .inl (congrArg Key.restriction (Rule.Field.part.inj same))
    | contradiction

variable [Zone.Directory]

/-- What the value of an assignment says of a rule. -/
def States (calendar : Calendar) (rule : Rule) : Key → List Char → Prop
  | .lastDate, value => ∃ date, Until.read calendar value = .ok (some date) ∧
      rule.ending = .afterDate date.truncate
  | .count, value => ∃ n : Nat, Digits.Spells value n ∧ 1 ≤ n ∧ rule.ending = .afterCount n
  | .interval, value => ∃ n : Nat, Digits.Spells value n ∧ 1 ≤ n ∧ rule.interval = n
  | .restriction .weekday, value => SpellsList DayEntry.Spelled value rule.weekdays
  | .restriction part, value => SpellsList part.domain.Spells value (rule.numbers part)

variable {calendar : Calendar} {source rule middle last : Rule} {key : Key} {value : List Char}

theorem States.of_sameAt (stated : States calendar source key value)
    (same : source.SameAt rule key.field) : States calendar rule key value := by
  cases key with
  | lastDate =>
      obtain ⟨date, reads, ends⟩ := stated
      exact ⟨date, reads, Eq.trans (Eq.symm same) ends⟩
  | count =>
      obtain ⟨n, spells, positive, ends⟩ := stated
      exact ⟨n, spells, positive, Eq.trans (Eq.symm same) ends⟩
  | interval =>
      obtain ⟨n, spells, positive, repeats⟩ := stated
      exact ⟨n, spells, positive, Eq.trans (Eq.symm same) repeats⟩
  | restriction part =>
      cases part with
      | weekday =>
          have weekdays : source.weekdays = rule.weekdays := same.2 rfl
          rw [States, ← weekdays]
          exact stated
      | _ =>
          simp only [States, ← same.1]
          exact stated

/-- An end that is said is an end. -/
theorem States.ends (stated : States calendar rule key value) (isEnd : key.field = .ending) :
    rule.ending ≠ .never := by
  cases key with
  | lastDate =>
      obtain ⟨date, _, ends⟩ := stated
      rw [ends]
      exact nofun
  | count =>
      obtain ⟨n, _, _, ends⟩ := stated
      rw [ends]
      exact nofun
  | interval => contradiction
  | restriction part => contradiction

theorem readLastDate_eq_ok {assigned : Assignment} {date : Moment} :
    readLastDate calendar assigned = .ok date ↔
      Until.read calendar assigned.value.chars = .ok (some date) := by
  rw [readLastDate]
  split
  · next fault reads => simp [reads]
  · next reads => simp [reads]
  · next other reads => simp [reads]

theorem readRestriction_eq_ok {part : Part} {start place : Nat} {text : String} :
    readRestriction rule part ⟨start, text, ⟨place, value⟩⟩ = .ok middle ↔
      States calendar middle (.restriction part) value ∧ middle = middle.adopt rule part := by
  cases part with
  | weekday =>
      rw [readRestriction, map_eq_ok]
      simp only [readElements_eq_ok (fun _ _ => DayEntry.read_eq_some) fun _ _ => DayEntry.Spelled.noComma]
      constructor
      · rintro ⟨entries, spells, rfl⟩
        exact ⟨spells, rfl⟩
      · rintro ⟨spells, same⟩
        exact ⟨middle.weekdays, spells, same.symm⟩
  | _ =>
      rw [readRestriction, map_eq_ok]
      · simp only [readElements_eq_ok (fun _ _ => Domain.read_eq_some) fun _ _ => Domain.Spells.noComma]
        constructor
        · rintro ⟨numbers, spells, rfl⟩
          exact ⟨spells, rfl⟩
        · rintro ⟨spells, same⟩
          exact ⟨_, spells, same.symm⟩
      · exact nofun

/-- An assignment sets its field to what its value says and keeps the others.  An end is set at most
once. -/
theorem assign_eq_ok {start place : Nat} {text : String} :
    assign calendar rule key ⟨start, text, ⟨place, value⟩⟩ = .ok middle ↔
      (key.field = .ending → rule.ending = .never) ∧ States calendar middle key value ∧
        middle = middle.take rule key.field := by
  cases key with
  | lastDate =>
      simp only [assign, bind_eq_ok, mapError_eq_ok, checkEnding_eq_ok, readLastDate_eq_ok, pure,
        Except.pure, Except.ok.injEq]
      constructor
      · rintro ⟨_, endless, date, reads, rfl⟩
        exact ⟨fun _ => endless, ⟨date, reads, rfl⟩, rfl⟩
      · rintro ⟨endless, ⟨date, reads, ends⟩, same⟩
        refine ⟨(), endless rfl, date, reads, ?_⟩
        rw [← ends]
        exact same.symm
  | count =>
      simp only [assign, bind_eq_ok, mapError_eq_ok, checkEnding_eq_ok, readPositive_eq_ok, pure,
        Except.pure, Except.ok.injEq]
      constructor
      · rintro ⟨_, endless, _, ⟨n, spells, positive, rfl⟩, rfl⟩
        exact ⟨fun _ => endless, ⟨n, spells, positive, rfl⟩, rfl⟩
      · rintro ⟨endless, ⟨n, spells, positive, ends⟩, same⟩
        refine ⟨(), endless rfl, n, ⟨n, spells, positive, rfl⟩, ?_⟩
        rw [← ends]
        exact same.symm
  | interval =>
      simp only [assign, mapError_eq_ok, map_eq_ok, readPositive_eq_ok]
      constructor
      · rintro ⟨_, ⟨n, spells, positive, rfl⟩, rfl⟩
        exact ⟨nofun, ⟨n, spells, positive, rfl⟩, rfl⟩
      · rintro ⟨_, ⟨n, spells, positive, repeats⟩, same⟩
        refine ⟨n, ⟨n, spells, positive, rfl⟩, ?_⟩
        rw [← repeats]
        exact same.symm
  | restriction part =>
      rw [assign, mapError_eq_ok, @readRestriction_eq_ok _ calendar]
      exact ⟨fun read => ⟨nofun, read⟩, fun read => read.2⟩

/-- Every field that is assigned has what its assignment says, and every other is kept. -/
structure Meets (calendar : Calendar) (rule : Rule) (entries : List (Key × List Char))
    (last : Rule) : Prop where
  endless : ∀ entry ∈ entries, entry.1.field = .ending → rule.ending = .never
  frequency : last.frequency = rule.frequency
  stated : ∀ entry ∈ entries, States calendar last entry.1 entry.2
  kept : ∀ field, (∀ entry ∈ entries, entry.1.field ≠ field) → last.SameAt rule field

theorem meets_nil : Meets calendar rule [] last ↔ rule = last := by
  constructor
  · intro meets
    exact (Rule.eq_of_sameAt meets.frequency fun field =>
      meets.kept field (List.forall_mem_nil _)).symm
  · rintro rfl
    exact ⟨List.forall_mem_nil _, rfl, List.forall_mem_nil _, fun field _ => Rule.sameAt_refl _ field⟩

section Run

variable {rest entries : List (Key × List Char)}

/-- A run of assignments to different fields, one step at a time. -/
theorem meets_cons (different : ∀ entry ∈ rest, entry.1.field ≠ key.field) :
    Meets calendar rule ((key, value) :: rest) last ↔
      ∃ middle, (∀ start place,
        assign calendar rule key ⟨start, key.text, ⟨place, value⟩⟩ = .ok middle) ∧
          Meets calendar middle rest last := by
  simp only [assign_eq_ok]
  constructor
  · rintro ⟨endless, frequency, stated, kept⟩
    obtain ⟨firstEndless, endless⟩ := List.forall_mem_cons.1 endless
    obtain ⟨first, stated⟩ := List.forall_mem_cons.1 stated
    have taken := Rule.sameAt_take last rule key.field
    have same : (last.take rule key.field).take rule key.field = last.take rule key.field :=
      Rule.take_eq_self (Rule.frequency_take _ _ _) fun other => Rule.sameAt_take_of_ne
    refine ⟨last.take rule key.field, fun _ _ => ⟨firstEndless, first.of_sameAt taken, same.symm⟩, ?_⟩
    refine ⟨fun entry member isEnd => ?_, ?_, stated, fun field others => ?_⟩
    · have other : Rule.Field.ending ≠ key.field := isEnd ▸ different entry member
      exact Eq.trans (Rule.sameAt_take_of_ne other) (endless entry member isEnd)
    · exact frequency.trans (Rule.frequency_take _ _ _).symm
    · by_cases isField : field = key.field
      · rw [isField]
        exact taken
      · exact (kept field (List.forall_mem_cons.2 ⟨fun same => isField same.symm, others⟩)).trans
          (Rule.sameAt_take_of_ne isField).symm
  · rintro ⟨middle, steps, endless, frequency, stated, kept⟩
    obtain ⟨firstEndless, first, same⟩ := steps 0 0
    have isKept : last.SameAt middle key.field := kept key.field different
    have other (field : Rule.Field) (differs : field ≠ key.field) : middle.SameAt rule field := by
      rw [same]
      exact Rule.sameAt_take_of_ne differs
    refine ⟨List.forall_mem_cons.2 ⟨firstEndless, fun entry member isEnd => ?_⟩, ?_,
      List.forall_mem_cons.2 ⟨first.of_sameAt isKept.symm, stated⟩, fun field others => ?_⟩
    · have differs : Rule.Field.ending ≠ key.field := isEnd ▸ different entry member
      exact Eq.trans (other .ending differs).symm (endless entry member isEnd)
    · rw [frequency, same]
      exact Rule.frequency_take _ _ _
    · obtain ⟨firstOther, others⟩ := List.forall_mem_cons.1 others
      exact (kept field others).trans (other field (Ne.symm firstOther))

theorem understood_cons :
    Understood calendar rule ((key, value) :: rest) last ↔
      ∃ middle, (∀ start place,
        assign calendar rule key ⟨start, key.text, ⟨place, value⟩⟩ = .ok middle) ∧
          Understood calendar middle rest last := by
  constructor
  · rintro (_ | ⟨assigns, later⟩)
    exact ⟨_, assigns, later⟩
  · rintro ⟨middle, assigns, later⟩
    exact .step assigns later

/-- Assignments of different keys run through exactly if they set different fields and the last rule
is what they say. -/
theorem understood_iff (distinct : (entries.map Prod.fst).Nodup) :
    Understood calendar rule entries last ↔
      (entries.map fun entry => entry.1.field).Nodup ∧ Meets calendar rule entries last := by
  induction entries generalizing rule with
  | nil =>
      rw [meets_nil]
      constructor
      · rintro ⟨⟩
        exact ⟨List.nodup_nil, rfl⟩
      · rintro ⟨_, rfl⟩
        exact .done _
  | cons entry rest ih =>
      obtain ⟨key, value⟩ := entry
      obtain ⟨isNew, distinct⟩ := List.nodup_cons.1 distinct
      simp only [understood_cons, ih distinct, List.map_cons, List.nodup_cons]
      constructor
      · rintro ⟨middle, steps, fields, meets⟩
        have different : ∀ entry ∈ rest, entry.1.field ≠ key.field := by
          intro entry member same
          rcases Key.eq_or_ends same with again | isEnd
          · exact isNew (List.mem_map.2 ⟨entry, member, again⟩)
          · have stated := (assign_eq_ok.1 (steps 0 0)).2.1
            exact stated.ends isEnd (meets.endless entry member (same.trans isEnd))
        refine ⟨⟨fun member => ?_, fields⟩, (meets_cons different).2 ⟨middle, steps, meets⟩⟩
        obtain ⟨entry, inRest, same⟩ := List.mem_map.1 member
        exact different entry inRest same
      · rintro ⟨⟨absent, fields⟩, meets⟩
        have different : ∀ entry ∈ rest, entry.1.field ≠ key.field := fun entry member same =>
          absent (List.mem_map.2 ⟨entry, member, same⟩)
        obtain ⟨middle, steps, later⟩ := (meets_cons different).1 meets
        exact ⟨middle, steps, fields, later⟩

end Run

end RuleText

end Recurrence
