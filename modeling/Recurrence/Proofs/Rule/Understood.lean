import Recurrence.Rule.Printer
import Recurrence.Proofs.Rule.Pieces

namespace Recurrence.RuleText

/-! What reading makes of assignments as they are written.

`Understood` follows a rule through the assignments after FREQ, one step of `assign` at a time.  Such a
run is what `readLater` does when no key comes twice (`readLater_of_understood`).  A text that is not
empty is read as its parts are (`readAt_eq_readParts`).
-/

def Key.text : Key → String
  | .lastDate => "UNTIL"
  | .count => "COUNT"
  | .interval => "INTERVAL"
  | .restriction part => part.key

theorem Key.ofText?_text (key : Key) : Key.ofText? key.text = some key := by
  cases key with
  | restriction part => cases part <;> decide
  | _ => decide

theorem Key.eq_of_text {first second : Key} (same : first.text = second.text) : first = second := by
  have read := Key.ofText?_text first
  rw [same, Key.ofText?_text] at read
  exact (Option.some.inj read).symm

theorem Key.noEquals (key : Key) : '=' ∉ key.text.toList := by
  cases key with
  | restriction part => cases part <;> decide
  | _ => decide

def written (entry : Key × List Char) : List Char := assigned entry.1.text entry.2

theorem written_ne_nil (entry : Key × List Char) : written entry ≠ [] := by
  simp [written, assigned]

/-- The keys of assignments are all different, and none has been seen before. -/
def AreNew (seen : List String) (entries : List (Key × List Char)) : Prop :=
  (entries.map Prod.fst).Nodup ∧ ∀ entry ∈ entries, entry.1.text ∉ seen

theorem areNew_nil (seen : List String) : AreNew seen [] := ⟨List.nodup_nil, List.forall_mem_nil _⟩

theorem areNew_cons {seen : List String} {key : Key} {value : List Char}
    {rest : List (Key × List Char)} :
    AreNew seen ((key, value) :: rest) ↔ key.text ∉ seen ∧ AreNew (key.text :: seen) rest := by
  constructor
  · rintro ⟨distinct, fresh⟩
    obtain ⟨notLater, distinct⟩ := List.nodup_cons.1 distinct
    obtain ⟨isNew, fresh⟩ := List.forall_mem_cons.1 fresh
    refine ⟨isNew, distinct, fun entry member again => ?_⟩
    rcases List.mem_cons.1 again with same | before
    · exact notLater (List.mem_map.2 ⟨entry, member, Key.eq_of_text same⟩)
    · exact fresh entry member before
  · rintro ⟨isNew, distinct, fresh⟩
    refine ⟨List.nodup_cons.2 ⟨fun later => ?_, distinct⟩,
      List.forall_mem_cons.2 ⟨isNew, fun entry member before =>
        fresh entry member (List.mem_cons_of_mem _ before)⟩⟩
    obtain ⟨entry, member, same⟩ := List.mem_map.1 later
    exact fresh entry member (same ▸ List.mem_cons_self)

theorem assignment_written (start : Nat) (entry : Key × List Char) :
    assignment ⟨start, written entry⟩ =
      .ok ⟨start, entry.1.text, ⟨start + entry.1.text.toList.length + 1, entry.2⟩⟩ := by
  have halves : cutAt? '=' (written entry) = some (entry.1.text.toList, entry.2) :=
    cutAt?_eq_some.2 ⟨rfl, entry.1.noEquals⟩
  rw [assignment, halves]
  simp only [String.ofList_toList]

variable [Zone.Directory]

/-- The assignments turn the first rule into the second, wherever in a text they stand. -/
inductive Understood (calendar : Calendar) : Rule → List (Key × List Char) → Rule → Prop
  | done (rule : Rule) : Understood calendar rule [] rule
  | step {rule middle last : Rule} {key : Key} {value : List Char} {rest : List (Key × List Char)}
      (assigns : ∀ start place, assign calendar rule key ⟨start, key.text, ⟨place, value⟩⟩ = .ok middle)
      (later : Understood calendar middle rest last) :
      Understood calendar rule ((key, value) :: rest) last

variable {calendar : Calendar}

theorem Understood.append {rule middle last : Rule} {first second : List (Key × List Char)}
    (before : Understood calendar rule first middle) (after : Understood calendar middle second last) :
    Understood calendar rule (first ++ second) last := by
  induction before with
  | done rule => exact after
  | step assigns _ ih => exact .step assigns (ih after)

/-- Reads the parts of a text that begins at `start`.  The first part is FREQ. -/
def readParts (calendar : Calendar) (start : Nat) : List Piece → Except Stop Rule
  | [] => .error (.fault ⟨.empty, start, none, none⟩)
  | first :: rest =>
      (readFirst first).mapError .fault >>= fun rule => readLater calendar ["FREQ"] rule rest

theorem readAt_eq_readParts {start : Nat} {text : List Char} (filled : text ≠ []) :
    readAt calendar start text = readParts calendar start (pieces start text) := by
  rw [readAt, List.isEmpty_eq_false_iff.mpr filled, if_neg Bool.false_ne_true]
  cases pieces start text with
  | nil => rfl
  | cons first rest =>
      simp only [readParts]
      cases readFirst first <;> rfl

/-- A run through assignments of new keys is read as such. -/
theorem readLater_of_understood {rule last : Rule} {entries : List (Key × List Char)}
    (understood : Understood calendar rule entries last) {seen : List String}
    (areNew : AreNew seen entries) (start : Nat) :
    readLater calendar seen rule (locate start (entries.map written)) = .ok last := by
  induction understood generalizing seen start with
  | done rule => rfl
  | @step rule middle last key value rest assigns later ih =>
      obtain ⟨isNew, restNew⟩ := areNew_cons.1 areNew
      have known : recognize seen key.text start = .ok key := by
        rw [recognize, if_neg isNew, Key.ofText?_text]
      rw [List.map_cons, locate, readLater_of_recognize (assignment_written start (key, value)) known,
        assigns]
      exact ih restNew _

end Recurrence.RuleText
