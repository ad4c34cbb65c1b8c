import Mathlib.Data.List.Perm.Basic
import Recurrence.Proofs.Rule.Overrun

namespace Recurrence

/-! The order of the assignments in a rule text.

What a run of assignments makes of a rule is said of its assignments one by one, so the same
assignments in another order make the same rule (`RuleText.Understood.perm`).  A text is read in one
order of its later parts exactly as in any other, whatever these parts are
(`RuleText.read_arranged_perm`).
-/

section Join

variable {separator : Char} {parts others : List (List Char)}

theorem cons_join (some : parts ≠ []) :
    separator :: join separator parts = parts.flatMap fun part => separator :: part := by
  induction parts with
  | nil => exact absurd rfl some
  | cons part rest ih =>
      cases rest with
      | nil => simp [join]
      | cons second later =>
          rw [List.flatMap_cons, ← ih (List.cons_ne_nil second later)]
          rfl

theorem join_perm (perm : parts.Perm others) : (join separator parts).Perm (join separator others) := by
  by_cases none : parts = []
  · subst none
    rw [perm.nil_eq]
  · have more : others ≠ [] := fun empty => none (perm.trans (.of_eq empty)).eq_nil
    rw [← List.perm_cons separator, cons_join none, cons_join more]
    exact perm.flatMap_right _

/-- A text and parts behind it are cut where they meet. -/
theorem split_join_cons (text : List Char) (absent : ∀ part ∈ parts, separator ∉ part) :
    split separator (join separator (text :: parts)) = split separator text ++ parts := by
  cases parts with
  | nil => exact (List.append_nil _).symm
  | cons part rest =>
      have cut := split_join_append (split_ne_nil separator text) (fun _ => not_mem_of_mem_split)
        (join separator (part :: rest))
      rw [join_split] at cut
      rw [join_cons (List.cons_ne_nil part rest), cut,
        split_join (List.cons_ne_nil part rest) absent]

end Join

namespace RuleGuard

theorem charFault?_eq_none {text : String} :
    charFault? text = none ↔ ∀ c ∈ text.toList, isAscii c = true ∧ isControl c = false := by
  simp only [forall_and]
  unfold charFault?
  split
  · next position c found =>
      refine ⟨nofun, fun printable => ?_⟩
      have ascii : findChar (fun c => !isAscii c) text.toList = none :=
        RuleText.findChar_eq_none.2 fun c member => by simp [printable.1 c member]
      rw [ascii] at found
      contradiction
  · next ascii =>
      rw [Option.map_eq_none_iff, RuleText.findChar_eq_none]
      refine (and_iff_right fun c member => ?_).symm
      simpa using RuleText.findChar_eq_none.1 ascii c member

theorem checkText_eq_ok_iff {text : String} {limit : Int} :
    checkText text limit = .ok text ↔
      text.toList ≠ [] ∧ (text.toList.length : Int) ≤ limit ∧
        ∀ c ∈ text.toList, isAscii c = true ∧ isControl c = false := by
  rw [← charFault?_eq_none, Ne, String.toList_eq_nil_iff, ← String.isEmpty_iff, ← Int.not_lt]
  unfold checkText
  split
  · next isEmpty => simp [isEmpty]
  · next filled =>
      split
      · next long => cases writable : Digits.isWritable limit <;> simp [long]
      · next short =>
          cases fault : charFault? text <;> simp [filled, short]

/-- What is checked of a text does not depend on the order of its characters. -/
theorem checkText_perm {text other : String} {limit : Int} (perm : text.toList.Perm other.toList)
    (checked : checkText text limit = .ok text) : checkText other limit = .ok other := by
  obtain ⟨filled, fits, printable⟩ := checkText_eq_ok_iff.1 checked
  refine checkText_eq_ok_iff.2 ⟨fun empty => filled (perm.trans (.of_eq empty)).eq_nil, ?_, ?_⟩
  · rw [← perm.length_eq]
    exact fits
  · exact fun c member => printable c (perm.mem_iff.2 member)

end RuleGuard

namespace RuleText

theorem AreNew.perm {seen : List String} {entries later : List (Key × List Char)}
    (areNew : AreNew seen entries) (perm : entries.Perm later) :
    AreNew seen later :=
  ⟨(perm.map Prod.fst).nodup_iff.1 areNew.1,
    fun entry member => areNew.2 entry (perm.mem_iff.2 member)⟩

/-- A rearrangement of written assignments is written for a rearrangement of them. -/
theorem exists_written_perm {entries : List (Key × List Char)} {texts : List (List Char)}
    (perm : (entries.map written).Perm texts) :
    ∃ later, texts = later.map written ∧ entries.Perm later := by
  have spelled : List.Forall₂ (fun text entry => text = written entry) (entries.map written) entries :=
    List.forall₂_map_left_iff.2 (List.forall₂_same.2 fun _ _ => rfl)
  obtain ⟨later, spelledLater, same⟩ := List.perm_comp_forall₂ perm.symm spelled
  refine ⟨later, ?_, same.symm⟩
  rw [← List.forall₂_eq_eq_eq, List.forall₂_map_right_iff]
  exact spelledLater

/-- The line of a text that begins with FREQ and goes on with further parts. -/
def arranged (frequency : List Char) (parts : List (List Char)) : List Char :=
  join ';' (assigned "FREQ" frequency :: parts)

theorem arranged_perm {frequency : List Char} {parts others : List (List Char)}
    (perm : parts.Perm others) : (arranged frequency parts).Perm (arranged frequency others) :=
  join_perm (perm.cons _)

/-- Parts that can stand in one line with semicolons between them. -/
def AreParts (parts : List (List Char)) : Prop :=
  ∀ part ∈ parts, part ≠ [] ∧ ∀ c ∈ part, c ≠ ';' ∧ isLineBreak c = false

section

variable {frequency : List Char} {parts others : List (List Char)}

theorem AreParts.perm (areParts : AreParts parts) (perm : parts.Perm others) : AreParts others :=
  fun part member => areParts part (perm.mem_iff.2 member)

/-- A line is cut into the pieces of its first part and the parts behind it. -/
theorem pieces_arranged (areParts : AreParts parts) (some : parts ≠ []) (start : Nat) :
    pieces start (arranged frequency parts) =
      locate start (split ';' (assigned "FREQ" frequency) ++ parts) := by
  have absent : ∀ part ∈ parts, ';' ∉ part :=
    fun part member semicolon => ((areParts part member).2 ';' semicolon).1 rfl
  have cut : split ';' (arranged frequency parts) = split ';' (assigned "FREQ" frequency) ++ parts :=
    split_join_cons _ absent
  have notEmpty : parts.getLast? ≠ Option.some [] :=
    getLast?_ne_nil fun part member => (areParts part member).1
  have last : (split ';' (assigned "FREQ" frequency) ++ parts).getLast? = parts.getLast? :=
    List.getLast?_append_of_ne_nil _ some
  simp only [pieces, cut, last, notEmpty, and_false, if_false]

theorem forall_mem_arranged (first : ∀ c ∈ frequency, isLineBreak c = false)
    (areParts : AreParts parts) : ∀ c ∈ arranged frequency parts, isLineBreak c = false := by
  refine forall_mem_join (by decide) (List.forall_mem_cons.2 ⟨?_, fun part member c inPart => ?_⟩)
  · exact List.forall_mem_append.2
      ⟨oneLine_of_all (by decide), List.forall_mem_cons.2 ⟨rfl, first⟩⟩
  · exact ((areParts part member).2 c inPart).2

/-- A line break in the first part ends the line before all others. -/
theorem window_arranged (broken : ∃ c ∈ frequency, isLineBreak c = true) :
    window (arranged frequency parts) 0 none =
      (assigned "FREQ" frequency).takeWhile fun c => !isLineBreak c := by
  obtain ⟨tail, isTail⟩ : ∃ tail, arranged frequency parts = assigned "FREQ" frequency ++ tail := by
    cases parts with
    | nil => exact ⟨[], (List.append_nil _).symm⟩
    | cons part rest => exact ⟨_, rfl⟩
  obtain ⟨c, member, isBreak⟩ := broken
  have inside : c ∈ assigned "FREQ" frequency :=
    List.mem_append_right _ (List.mem_cons_of_mem _ member)
  have short : ((assigned "FREQ" frequency).takeWhile fun c => !isLineBreak c).length ≠
      (assigned "FREQ" frequency).length := by
    intro whole
    have all := List.takeWhile_eq_self_iff.1 ((List.takeWhile_prefix _).eq_of_length whole) c inside
    simp [isBreak] at all
  rw [window, List.drop_zero, isTail, List.takeWhile_append, if_neg short]

theorem toOption_eq_of_forall {ε α : Type} {first second : Except ε α}
    (forward : ∀ value, first = .ok value → second = .ok value)
    (backward : ∀ value, second = .ok value → first = .ok value) :
    first.toOption = second.toOption := by
  cases first with
  | ok value => rw [forward value rfl]
  | error failure =>
      cases second with
      | ok value => cases backward value rfl
      | error other => rfl

end

variable [Zone.Directory] {calendar : Calendar} {rule last : Rule} {seen : List String}
  {entries later : List (Key × List Char)}

theorem Meets.perm (meets : Meets calendar rule entries last) (perm : entries.Perm later) :
    Meets calendar rule later last where
  endless := fun entry member => meets.endless entry (perm.mem_iff.2 member)
  frequency := meets.frequency
  stated := fun entry member => meets.stated entry (perm.mem_iff.2 member)
  kept := fun field unset => meets.kept field fun entry member => unset entry (perm.mem_iff.1 member)

theorem Understood.perm (understood : Understood calendar rule entries last)
    (distinct : (entries.map Prod.fst).Nodup) (perm : entries.Perm later) :
    Understood calendar rule later last := by
  obtain ⟨fields, meets⟩ := (understood_iff distinct).1 understood
  have laterDistinct : (later.map Prod.fst).Nodup := (perm.map Prod.fst).nodup_iff.1 distinct
  exact (understood_iff laterDistinct).2 ⟨(perm.map _).nodup_iff.1 fields, meets.perm perm⟩

/-- The parts after FREQ are read in any order alike, wherever they stand. -/
theorem readLater_perm {texts others : List (List Char)} {start place : Nat}
    (perm : texts.Perm others)
    (reads : readLater calendar seen rule (locate start texts) = .ok last) :
    readLater calendar seen rule (locate place others) = .ok last := by
  obtain ⟨entries, rfl, areNew, understood⟩ := readLater_eq_ok.1 reads
  obtain ⟨later, rfl, same⟩ := exists_written_perm perm
  exact readLater_eq_ok.2 ⟨later, rfl, areNew.perm same, understood.perm areNew.1 same⟩

variable {frequency : List Char} {parts others : List (List Char)}

theorem readAt_arranged_perm {start : Nat} (areParts : AreParts parts) (perm : parts.Perm others)
    (reads : readAt calendar start (arranged frequency parts) = .ok rule) :
    readAt calendar start (arranged frequency others) = .ok rule := by
  by_cases none : parts = []
  · subst none
    rwa [← perm.nil_eq]
  · have more : others ≠ [] := fun empty => none (perm.trans (.of_eq empty)).eq_nil
    have cut := @pieces_arranged frequency parts areParts none start
    have otherCut := @pieces_arranged frequency _ (areParts.perm perm) more start
    obtain ⟨first, rest, isFirst⟩ := List.exists_cons_of_ne_nil
      (split_ne_nil ';' (assigned "FREQ" frequency))
    rw [isFirst] at cut otherCut
    obtain ⟨known, same, later⟩ := (readAt_eq_iff (.ok rule) cut fun _ => nofun).1 reads
    refine (readAt_eq_iff (.ok rule) otherCut fun _ => nofun).2 ⟨known, same, ?_⟩
    exact readLater_perm (perm.append_left rest) later

theorem readPartial_arranged_perm {found : Nat × Rule} (areParts : AreParts parts)
    (perm : parts.Perm others)
    (reads : readPartial calendar (String.ofList (arranged frequency parts)) 0 none = .ok found) :
    readPartial calendar (String.ofList (arranged frequency others)) 0 none = .ok found := by
  rw [readPartial_eq, String.toList_ofList] at reads ⊢
  by_cases broken : ∃ c ∈ frequency, isLineBreak c = true
  · rw [window_arranged broken] at reads ⊢
    exact mapError_eq_ok.2 (mapError_eq_ok.1 reads)
  · have oneLine : ∀ c ∈ frequency, isLineBreak c = false := by simpa using broken
    rw [window_eq_self (forall_mem_arranged oneLine areParts), mapError_eq_ok, map_eq_ok] at reads
    rw [window_eq_self (forall_mem_arranged oneLine (areParts.perm perm)), mapError_eq_ok, map_eq_ok]
    obtain ⟨rule, isRead, rfl⟩ := reads
    refine ⟨rule, readAt_arranged_perm areParts perm isRead, ?_⟩
    rw [(@arranged_perm frequency _ _ perm).length_eq]

theorem readText_arranged_perm {limit : Int} (areParts : AreParts parts) (perm : parts.Perm others)
    (reads : readText calendar limit (String.ofList (arranged frequency parts)) = .ok rule) :
    readText calendar limit (String.ofList (arranged frequency others)) = .ok rule := by
  rw [readText, bind_eq_ok] at reads
  obtain ⟨text, passes, reads⟩ := reads
  obtain ⟨rfl, _⟩ := RuleGuard.checkText_eq_ok passes
  obtain ⟨found, isFound, rfl⟩ := map_eq_ok.1 reads
  have chars : (String.ofList (arranged frequency parts)).toList.Perm
      (String.ofList (arranged frequency others)).toList := by
    rw [String.toList_ofList, String.toList_ofList]
    exact arranged_perm perm
  rw [readText, RuleGuard.checkText_perm chars passes]
  exact map_eq_ok.2 ⟨found, readPartial_arranged_perm areParts perm isFound, rfl⟩

/-- A line that begins with FREQ is read, or refused, in every order of its other parts alike. -/
theorem read_arranged_perm (calendar : Calendar) (frequency : List Char)
    {parts others : List (List Char)} (areParts : AreParts parts) (perm : parts.Perm others) :
    (readPartial calendar (String.ofList (arranged frequency parts)) 0 none).toOption =
        (readPartial calendar (String.ofList (arranged frequency others)) 0 none).toOption ∧
      ∀ limit,
        (readText calendar limit (String.ofList (arranged frequency parts))).toOption =
          (readText calendar limit (String.ofList (arranged frequency others))).toOption :=
  ⟨toOption_eq_of_forall (fun _ => readPartial_arranged_perm areParts perm)
      fun _ => readPartial_arranged_perm (areParts.perm perm) perm.symm,
    fun _ => toOption_eq_of_forall (fun _ => readText_arranged_perm areParts perm)
      fun _ => readText_arranged_perm (areParts.perm perm) perm.symm⟩

end RuleText

namespace RuleText

attribute [local instance] Zone.table

/-- The later parts of the text for `twiceMonday`. -/
def mondayParts : List (List Char) :=
  ["BYDAY=+2MO,SU,2MO".toList, "COUNT=03".toList, "BYHOUR=9,09".toList]

theorem areParts_mondayParts : AreParts mondayParts := by
  have plain : ∀ part ∈ mondayParts, part ≠ [] ∧
      (part.all fun c => c != ';' && !isLineBreak c) = true := by decide +kernel
  refine fun part member => ⟨(plain part member).1, fun c inPart => ?_⟩
  simpa using List.all_eq_true.1 (plain part member).2 c inPart

theorem read_mondayParts_reversed :
    AreParts mondayParts ∧ mondayParts.Perm mondayParts.reverse ∧
      (readPartial {} (String.ofList (arranged "MONTHLY".toList mondayParts.reverse)) 0 none).toOption =
        some (51, twiceMonday) ∧
      (readText {} RuleGuard.defaultLimit
        (String.ofList (arranged "MONTHLY".toList mondayParts.reverse))).toOption =
          some twiceMonday := by
  have perm := mondayParts.reverse_perm.symm
  obtain ⟨partial_, whole⟩ := read_arranged_perm {} "MONTHLY".toList areParts_mondayParts perm
  refine ⟨areParts_mondayParts, perm, partial_.symm.trans ?_, (whole _).symm.trans ?_⟩
  · have reads : readPartial {} (String.ofList (arranged "MONTHLY".toList mondayParts)) 0 none =
        .ok (51, twiceMonday) := by
      rw [readPartial_eq]
      decide +kernel
    rw [reads]
    rfl
  · have reads : readText {} RuleGuard.defaultLimit
        (String.ofList (arranged "MONTHLY".toList mondayParts)) = .ok twiceMonday := by
      simp only [readText, readPartial_eq]
      decide +kernel
    rw [reads]
    rfl

end RuleText

end Recurrence
