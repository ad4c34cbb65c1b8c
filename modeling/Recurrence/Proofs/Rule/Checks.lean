import Recurrence.Proofs.Checked
import Recurrence.Proofs.Rule.Assignments
import Recurrence.Proofs.Zone.Fraction
import Recurrence.Rule.Model

namespace Recurrence

/-! A valid rule passes the checks on its data.

The data of a rule name its frequency and some of its fields.  If the other fields have their defaults,
the checks find nothing wrong and give the rule back (`Rule.ofEntries_data`).
-/

def DayEntry.datum (entry : DayEntry) : Value :=
  .object [("ordinal", match entry.ordinal with
      | none => .null
      | some ordinal => .int ordinal),
    ("weekday", .text entry.weekday.code)]

def Ending.datum : Ending → Value
  | .never => .object []
  | .afterCount count => .object [("count", .int count)]
  | .afterDate date => .object [("until", .date (.aware date))]

namespace Rule

def Field.name : Field → String
  | .ending => "end"
  | .interval => "interval"
  | .part restricted => restricted.field

def datum (rule : Rule) : Field → Value
  | .ending => rule.ending.datum
  | .interval => .int rule.interval
  | .part .weekday => .list (rule.weekdays.map DayEntry.datum)
  | .part part => .list ((rule.numbers part).map .int)

/-- The data of a rule, with some of its fields. -/
def data (rule : Rule) (fields : List Field) : List (String × Value) :=
  ("frequency", .text rule.frequency.name) :: fields.map fun field => (field.name, rule.datum field)

end Rule

theorem Part.complaint?_eq_none {part : Part} {numbers : List Int}
    (inside : ∀ number ∈ numbers, part.domain.has number = true) : part.complaint? numbers = none := by
  have found : numbers.find? (fun number => !part.domain.has number) = none :=
    List.find?_eq_none.2 fun number member => by simp [inside number member]
  rw [Part.complaint?, found, Option.map_none]

theorem Value.month_int {number : Int} (inside : Part.month.domain.has number = true) :
    Value.month (.int number) = .good number := by
  simp only [Value.month, Value.integer, if_pos inside]

theorem DayEntry.ofValue_datum {entry : DayEntry} (valid : entry.Valid) :
    DayEntry.ofValue entry.datum = .good entry := by
  obtain ⟨ordinal, weekday⟩ := entry
  have known : Value.listed Weekday.ofCode? (.text weekday.code) = .good weekday := by
    simp only [Value.listed, Weekday.ofCode?_code]
  cases ordinal with
  | none =>
      change DayEntry.mk <$> Checked.good none <*>
        (Value.listed Weekday.ofCode? (.text weekday.code)).within (.field "weekday") = _
      rw [known]
      rfl
  | some number =>
      have inside : Domain.ordinals.has number = true := valid number rfl
      have accepted : ordinalComplaint? (some number) = none := by
        rw [ordinalComplaint?, if_pos inside]
      change DayEntry.mk <$> ((Checked.good (some number)).refusing ordinalComplaint?).within
          (.field "ordinal") <*>
        (Value.listed Weekday.ofCode? (.text weekday.code)).within (.field "weekday") = _
      rw [known, Checked.refusing, accepted]
      rfl

theorem Ending.ofValue_datum {ending : Ending} (valid : ending.Valid) :
    Ending.ofValue ending.datum = .good ending := by
  cases ending with
  | never => rfl
  | afterCount count =>
      change (Prod.mk <$> ((Value.integerFrom 1 (.int count)).map some).within (.field "count") <*>
        Checked.good none).andThen _ = _
      rw [Value.integerFrom_int valid]
      rfl
  | afterDate date =>
      have truncated : date.truncate = date := by
        rw [Moment.truncate, WallTime.truncate_of_microsecond valid]
      change Checked.good (Ending.afterDate date.truncate) = _
      rw [truncated]

namespace Rule

variable {rule : Rule} {fields : List Field}

theorem Field.name_injective {field other : Field} (same : field.name = other.name) :
    field = other := by
  cases field with
  | part restricted =>
      cases other with
      | part another =>
          cases restricted <;> cases another <;> first
            | rfl
            | exact absurd same (by decide)
      | _ => cases restricted <;> exact absurd same (by decide)
  | _ =>
      cases other with
      | part restricted => cases restricted <;> exact absurd same (by decide)
      | _ => first
        | rfl
        | exact absurd same (by decide)

theorem Field.name_ne_frequency (field : Field) : field.name ≠ "frequency" := by
  cases field with
  | part restricted => cases restricted <;> decide
  | _ => decide

theorem lookup_data (rule : Rule) (fields : List Field) (field : Field) :
    (rule.data fields).lookup field.name =
      if field ∈ fields then some (rule.datum field) else none := by
  rw [data, List.lookup_cons, beq_eq_false_iff_ne.2 field.name_ne_frequency]
  induction fields with
  | nil => rfl
  | cons first rest ih =>
      rw [List.map_cons]
      by_cases same : field = first
      · simp [same]
      · have other : (field.name == first.name) = false :=
          beq_eq_false_iff_ne.2 fun equal => same (Field.name_injective equal)
        simpa only [List.lookup_cons, other, List.mem_cons, same, false_or] using ih

theorem optional_data {α : Type} {field : Field} {check : Value → Checked α} {value default : α}
    (good : check (rule.datum field) = .good value) (unset : field ∉ fields → value = default) :
    Value.optional field.name default check (rule.data fields) = .good value := by
  rw [Value.optional, lookup_data]
  by_cases isSet : field ∈ fields
  · rw [if_pos isSet]
    simp only [good, Checked.within]
  · rw [if_neg isSet, unset isSet]

theorem datum_part {part : Part} (number : part ≠ .weekday) :
    rule.datum (.part part) = .list ((rule.numbers part).map .int) := by
  cases part <;> first
    | rfl
    | exact absurd rfl number

theorem numbers_eq_optional {part : Part} (noMonth : part ≠ .month) (entries : List (String × Value)) :
    part.numbers entries = Value.optional part.field []
      (fun value => (Value.listOf Value.integer value).refusing part.complaint?) entries := by
  cases part <;> first
    | rfl
    | exact absurd rfl noMonth

theorem numbers_data (valid : rule.Valid) {part : Part} (number : part ≠ .weekday)
    (unset : .part part ∉ fields → rule.numbers part = []) :
    part.numbers (rule.data fields) = .good (rule.numbers part) := by
  have inside := valid.2.2.2 part part.mem_all
  by_cases isMonth : part = .month
  · subst isMonth
    refine @optional_data rule fields _ (.part .month) _ _ _ ?_ unset
    exact Checked.all_map (fun number member => Value.month_int (inside number member)) 0
  · rw [numbers_eq_optional isMonth]
    refine @optional_data rule fields _ (.part part) _ _ _ ?_ unset
    have listed : Value.listOf Value.integer (.list ((rule.numbers part).map .int)) =
        .good (rule.numbers part) :=
      @Checked.all_map Int Value.integer .int _ (fun _ _ => rfl) 0
    rw [datum_part number, listed, Checked.refusing, Part.complaint?_eq_none inside]

/-- A valid rule is made of its data, whatever fields with their defaults are left out. -/
theorem ofEntries_data (valid : rule.Valid)
    (unset : ∀ field, field ∉ fields → rule.SameAt { frequency := rule.frequency } field) :
    Rule.ofEntries (rule.data fields) = .good rule := by
  have number (part : Part) (isNumber : part ≠ .weekday) :
      part.numbers (rule.data fields) = .good (rule.numbers part) := by
    refine numbers_data valid isNumber fun absent => ?_
    rw [(unset (.part part) absent).1]
    cases part <;> rfl
  have frequency : Value.required "frequency" (Value.listed Frequency.ofName?) (rule.data fields) =
      .good rule.frequency := by
    have known : Value.listed Frequency.ofName? (.text rule.frequency.name) = .good rule.frequency := by
      simp only [Value.listed, Frequency.ofName?_name]
    rw [Value.required, data, List.lookup_cons_self]
    simp only [known, Checked.within]
  have interval : Value.optional "interval" 1 (Value.integerFrom 1) (rule.data fields) =
      .good rule.interval :=
    @optional_data rule fields _ .interval _ _ _ (Value.integerFrom_int valid.1) (unset .interval)
  have ending : Value.optional "end" .never Ending.ofValue (rule.data fields) = .good rule.ending :=
    @optional_data rule fields _ .ending _ _ _ (Ending.ofValue_datum valid.2.1) (unset .ending)
  have weekdays : Value.optional "weekdays" [] (Value.listOf DayEntry.ofValue) (rule.data fields) =
      .good rule.weekdays := by
    refine @optional_data rule fields _ (.part .weekday) _ _ _ ?_ fun absent =>
      (unset (.part .weekday) absent).2 rfl
    exact Checked.all_map (fun entry member => DayEntry.ofValue_datum (valid.2.2.1 entry member)) 0
  rw [ofEntries, frequency, interval, ending, weekdays, number .second (by decide),
    number .minute (by decide), number .hour (by decide), number .monthDay (by decide),
    number .yearDay (by decide), number .week (by decide), number .month (by decide),
    number .position (by decide)]
  rfl

end Rule

end Recurrence
