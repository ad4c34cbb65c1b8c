import Recurrence.Proofs.Rule.Assignments

namespace Recurrence.RuleText

/-! How reading goes through the assignments after FREQ, and how it ends.

A text that is no new assignment of a known key is a fault at once (`readLater_step`).  So reading ends
at a rule exactly after a run of assignments (`readLater_eq_ok`), and it leaves the calendar exactly at
a last date after a run that sets no end (`readLater_eq_outOfRange`).
-/

theorem Key.ofText?_eq_some {text : String} {key : Key} :
    ofText? text = some key ↔ key.text = text := by
  constructor
  · intro known
    unfold ofText? at known
    split at known
    · next isText =>
        cases known
        exact isText.symm
    · split at known
      · next isText =>
          cases known
          exact isText.symm
      · split at known
        · next isText =>
            cases known
            exact isText.symm
        · obtain ⟨part, found, rfl⟩ := Option.map_eq_some_iff.1 known
          exact beq_iff_eq.1 (List.find?_some found :)
  · rintro rfl
    exact ofText?_text key

theorem recognize_eq_ok {seen : List String} {name : String} {start : Nat} {key : Key} :
    recognize seen name start = .ok key ↔ name ∉ seen ∧ key.text = name := by
  rw [recognize, ← Key.ofText?_eq_some]
  by_cases again : name ∈ seen
  · simp [again]
  · cases known : Key.ofText? name <;> simp [again]

theorem mapError_fault_ne {α : Type} (result : Except Finding α) {stop : Stop}
    (noFault : ∀ finding, Stop.fault finding ≠ stop) : result.mapError Stop.fault ≠ .error stop := by
  cases result with
  | ok value => exact nofun
  | error finding => exact fun same => noFault finding (Except.error.inj same)

variable [Zone.Directory] {calendar : Calendar} {rule last : Rule} {key : Key} {value text : List Char}
  {texts : List (List Char)} {seen : List String} {start : Nat}

theorem readLater_written (isNew : key.text ∉ seen) :
    readLater calendar seen rule (locate start (written (key, value) :: texts)) =
      assign calendar rule key ⟨start, key.text, ⟨start + key.text.toList.length + 1, value⟩⟩ >>=
        fun extended => readLater calendar (key.text :: seen) extended
          (locate (start + (written (key, value)).length + 1) texts) := by
  have recognized : recognize seen key.text start = .ok key := recognize_eq_ok.2 ⟨isNew, rfl⟩
  rw [locate, readLater_of_recognize (assignment_written start (key, value)) recognized]

/-- A text that is no new assignment of a known key is a fault. -/
theorem readLater_step (calendar : Calendar) (rule : Rule) (seen : List String) (start : Nat)
    (text : List Char) (texts : List (List Char)) :
    (∃ key value, text = written (key, value) ∧ key.text ∉ seen) ∨
      ∃ finding, readLater calendar seen rule (locate start (text :: texts)) =
        .error (.fault finding) := by
  cases halves : cutAt? '=' text with
  | none =>
      have noAssignment : assignment ⟨start, text⟩ =
          .error ⟨.missingEquals, start, none, some (String.ofList text)⟩ := by
        rw [assignment, halves]
      rw [locate, readLater, noAssignment]
      exact .inr ⟨_, rfl⟩
  | some parts =>
      obtain ⟨front, value⟩ := parts
      have isAssignment : assignment ⟨start, text⟩ =
          .ok ⟨start, String.ofList front, ⟨start + front.length + 1, value⟩⟩ := by
        rw [assignment, halves]
      rw [locate, readLater, isAssignment]
      simp only [mapError_ok, bind, Except.bind]
      cases recognized : recognize seen (String.ofList front) start with
      | error finding => exact .inr ⟨finding, rfl⟩
      | ok key =>
          obtain ⟨isNew, known⟩ := recognize_eq_ok.1 recognized
          have same : text = written (key, value) := by
            rw [(cutAt?_eq_some.1 halves).1, written, assigned, known, String.toList_ofList]
          exact .inl ⟨key, value, same, known ▸ isNew⟩

/-- Reading ends at a rule exactly after a run of assignments of new keys. -/
theorem readLater_eq_ok :
    readLater calendar seen rule (locate start texts) = .ok last ↔
      ∃ entries, texts = entries.map written ∧ AreNew seen entries ∧
        Understood calendar rule entries last := by
  constructor
  · intro reads
    induction texts generalizing seen rule start with
    | nil =>
        cases reads
        exact ⟨[], rfl, areNew_nil seen, .done _⟩
    | cons text texts ih =>
        rcases readLater_step calendar rule seen start text texts with
          ⟨key, value, rfl, isNew⟩ | ⟨finding, faulty⟩
        · rw [readLater_written isNew, bind_eq_ok] at reads
          obtain ⟨middle, assigns, later⟩ := reads
          obtain ⟨entries, rfl, areNew, understood⟩ := ih later
          exact ⟨(key, value) :: entries, rfl, areNew_cons.2 ⟨isNew, areNew⟩,
            .step (fun _ _ => assign_eq_ok.2 (assign_eq_ok.1 assigns)) understood⟩
        · rw [faulty] at reads
          contradiction
  · rintro ⟨entries, rfl, areNew, understood⟩
    exact readLater_of_understood understood areNew start

theorem readLastDate_eq_outOfRange {assigned : Assignment} :
    readLastDate calendar assigned = .error .outOfRange ↔
      Until.read calendar assigned.value.chars = .ok none := by
  rw [readLastDate]
  split
  · next fault reads => simp [reads]
  · next reads => simp [reads]
  · next other reads => simp [reads]

/-- Of all assignments only a last date can leave the calendar. -/
theorem assign_eq_outOfRange {place : Nat} {name : String} :
    assign calendar rule key ⟨start, name, ⟨place, value⟩⟩ = .error .outOfRange ↔
      key = .lastDate ∧ rule.ending = .never ∧ Until.read calendar value = .ok none := by
  cases key with
  | lastDate =>
      simp only [assign]
      have dated := @readLastDate_eq_outOfRange _ calendar ⟨start, name, ⟨place, value⟩⟩
      have endless := @checkEnding_eq_ok rule name place ()
      cases checked : checkEnding rule name place with
      | error finding =>
          have ended : rule.ending ≠ .never := by
            intro never
            rw [checked] at endless
            cases endless.2 never
          simp [Except.mapError, bind, Except.bind, ended]
      | ok done =>
          rw [checked] at endless
          simp only [true_and, endless.1 rfl, ← dated, mapError_ok, bind, Except.bind]
          cases readLastDate calendar ⟨start, name, ⟨place, value⟩⟩ <;> simp [pure, Except.pure]
  | _ =>
      exact ⟨fun stops => absurd stops (mapError_fault_ne _ fun _ => Stop.noConfusion),
        fun parts => Key.noConfusion parts.1⟩

/-- Pieces do not end before their last sign. -/
theorem assign_ne_outOfText (assigned : Assignment) :
    assign calendar rule key assigned ≠ .error .outOfText := by
  cases key with
  | lastDate =>
      intro stops
      simp only [assign, bind_eq_error, pure, Except.pure, reduceCtorEq, and_false, exists_false,
        or_false] at stops
      rcases stops with checked | ⟨_, _, dated⟩
      · exact mapError_fault_ne _ (fun _ => Stop.noConfusion) checked
      · unfold readLastDate at dated
        split at dated <;> cases dated
  | _ => exact mapError_fault_ne _ fun _ => Stop.noConfusion

theorem readLater_ne_outOfText :
    readLater calendar seen rule (locate start texts) ≠ .error .outOfText := by
  intro stops
  induction texts generalizing seen rule start with
  | nil => contradiction
  | cons text texts ih =>
      rcases readLater_step calendar rule seen start text texts with
        ⟨key, value, rfl, isNew⟩ | ⟨finding, faulty⟩
      · rw [readLater_written isNew, bind_eq_error] at stops
        rcases stops with assigns | ⟨middle, _, later⟩
        · exact assign_ne_outOfText _ assigns
        · exact ih later
      · rw [faulty] at stops
        cases stops

/-- An end that a rule has stays. -/
theorem Understood.ends {entries : List (Key × List Char)}
    (understood : Understood calendar rule entries last) (ends : rule.ending ≠ .never) :
    last.ending ≠ .never := by
  induction understood with
  | done rule => exact ends
  | @step rule middle last key value rest assigns later ih =>
      obtain ⟨endless, _, same⟩ := assign_eq_ok.1 (assigns 0 0)
      have other : Rule.Field.ending ≠ key.field := fun isEnd => ends (endless isEnd.symm)
      have kept : middle.ending = rule.ending := by
        rw [same]
        exact Rule.sameAt_take_of_ne other
      exact ih (kept ▸ ends)

/-- Reading leaves the calendar exactly at an assignment of a last date that cannot be expressed, after
a run that sets no end.  What follows it is not read. -/
theorem readLater_eq_outOfRange :
    readLater calendar seen rule (locate start texts) = .error .outOfRange ↔
      ∃ entries value rest last, texts = entries.map written ++ written (.lastDate, value) :: rest ∧
        AreNew seen entries ∧ Key.lastDate.text ∉ seen ∧ Understood calendar rule entries last ∧
        last.ending = .never ∧ Until.read calendar value = .ok none := by
  constructor
  · intro stops
    induction texts generalizing seen rule start with
    | nil => contradiction
    | cons text texts ih =>
        rcases readLater_step calendar rule seen start text texts with
          ⟨key, value, rfl, isNew⟩ | ⟨finding, faulty⟩
        · rw [readLater_written isNew] at stops
          cases assigns : assign calendar rule key
              ⟨start, key.text, ⟨start + key.text.toList.length + 1, value⟩⟩ with
          | error stop =>
              rw [assigns] at stops
              cases stops
              obtain ⟨rfl, endless, outside⟩ := assign_eq_outOfRange.1 assigns
              exact ⟨[], value, texts, rule, rfl, areNew_nil seen, isNew, .done rule, endless, outside⟩
          | ok middle =>
              rw [assigns] at stops
              obtain ⟨entries, final, rest, last, rfl, areNew, finalNew, understood, endless,
                outside⟩ := ih stops
              exact ⟨(key, value) :: entries, final, rest, last, rfl, areNew_cons.2 ⟨isNew, areNew⟩,
                fun before => finalNew (List.mem_cons_of_mem _ before),
                .step (fun _ _ => assign_eq_ok.2 (assign_eq_ok.1 assigns)) understood, endless, outside⟩
        · rw [faulty] at stops
          cases stops
  · rintro ⟨entries, value, rest, last, rfl, areNew, isNew, understood, endless, outside⟩
    induction understood generalizing seen start with
    | done rule =>
        rw [List.map_nil, List.nil_append, readLater_written isNew,
          assign_eq_outOfRange.2 ⟨rfl, endless, outside⟩]
        rfl
    | @step rule middle last key first others assigns later ih =>
        obtain ⟨firstNew, othersNew⟩ := areNew_cons.1 areNew
        rw [List.map_cons, List.cons_append, readLater_written firstNew, assigns]
        refine ih othersNew (fun before => ?_) endless
        rcases List.mem_cons.1 before with same | before
        · have isEnd : key.field = .ending := Key.eq_of_text same ▸ rfl
          exact later.ends ((assign_eq_ok.1 (assigns 0 0)).2.1.ends isEnd) endless
        · exact isNew before

end Recurrence.RuleText
