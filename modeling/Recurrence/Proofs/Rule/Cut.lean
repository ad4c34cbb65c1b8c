import Recurrence.Proofs.Rule.Pieces

namespace Recurrence

/-! Where a rule text is cut.

A text is cut at every semicolon, but for one at its end.  `RuleText.pieces_closed` cuts a text that is
joined from its parts, `RuleText.exists_parts` finds the parts of any text, and
`RuleText.exists_pieces_append` and `RuleText.Closes.exists_pieces` keep the parts at the front of a
longer text.
-/

theorem not_mem_of_mem_split {separator : Char} {text piece : List Char}
    (member : piece ∈ split separator text) : separator ∉ piece := by
  induction text generalizing piece with
  | nil =>
      rw [List.mem_singleton.1 member]
      exact List.not_mem_nil
  | cons c rest ih =>
      unfold split at member
      split at member
      · rcases List.mem_cons.1 member with rfl | later
        · exact List.not_mem_nil
        · exact ih later
      · next differs =>
          cases cut : split separator rest with
          | nil => exact absurd cut (split_ne_nil separator rest)
          | cons first others =>
              rw [cut] at member ih
              rcases List.mem_cons.1 member with rfl | later
              · exact List.not_mem_cons_of_ne_of_not_mem (Ne.symm differs) (ih List.mem_cons_self)
              · exact ih (List.mem_cons_of_mem _ later)

section Join

variable {separator : Char} {parts others : List (List Char)}

theorem join_cons {part : List Char} (more : others ≠ []) :
    join separator (part :: others) = part ++ separator :: join separator others := by
  cases others with
  | nil => exact absurd rfl more
  | cons second later => rfl

theorem join_ne_nil (some : parts ≠ []) (filled : ∀ part ∈ parts, part ≠ []) :
    join separator parts ≠ [] := by
  cases parts with
  | nil => exact absurd rfl some
  | cons first rest =>
      have firstFilled := filled first List.mem_cons_self
      cases rest with
      | nil => exact firstFilled
      | cons second later => exact List.append_ne_nil_of_left_ne_nil firstFilled _

theorem join_append (filled : parts ≠ []) (more : others ≠ []) :
    join separator (parts ++ others) = join separator parts ++ separator :: join separator others := by
  induction parts with
  | nil => exact absurd rfl filled
  | cons part rest ih =>
      cases rest with
      | nil => exact join_cons more
      | cons second later =>
          have isLong : second :: later ≠ [] := List.cons_ne_nil second later
          rw [List.cons_append, join_cons (List.append_ne_nil_of_left_ne_nil isLong others), ih isLong,
            join_cons isLong, List.append_assoc, List.cons_append]

theorem split_join_append (filled : parts ≠ []) (absent : ∀ part ∈ parts, separator ∉ part)
    (rest : List Char) :
    split separator (join separator parts ++ separator :: rest) = parts ++ split separator rest := by
  have pieces : ∀ piece ∈ parts ++ split separator rest, separator ∉ piece :=
    List.forall_mem_append.2 ⟨absent, fun _ => not_mem_of_mem_split⟩
  have joined := @join_append separator parts _ filled (split_ne_nil separator rest)
  rw [join_split] at joined
  rw [← joined, split_join (List.append_ne_nil_of_left_ne_nil filled _) pieces]

end Join

namespace RuleText

/-- A text is a line that may have one more semicolon at its end. -/
def Closes (text line : List Char) : Prop := text = line ∨ text = line ++ [';']

variable {parts : List (List Char)} {text : List Char}

theorem getLast?_ne_nil (filled : ∀ part ∈ parts, part ≠ []) : parts.getLast? ≠ some [] :=
  fun last => filled [] (List.mem_of_getLast? last) rfl

/-- A text that is joined from parts is cut where they meet. -/
theorem pieces_closed (some : parts ≠ []) (absent : ∀ part ∈ parts, ';' ∉ part)
    (filled : ∀ part ∈ parts, part ≠ []) (closes : Closes text (join ';' parts)) (start : Nat) :
    pieces start text = locate start parts := by
  rcases closes with rfl | rfl
  · have notEmpty := getLast?_ne_nil filled
    simp only [pieces, split_join some absent, notEmpty, and_false, if_false]
  · have long : 1 < (parts ++ [[]]).length := by
      have positive := List.length_pos_iff.2 some
      rw [List.length_append, List.length_singleton]
      omega
    have cut : split ';' (join ';' parts ++ [';']) = parts ++ [[]] := split_join_append some absent []
    simp only [pieces, cut, long, List.getLast?_concat, and_self, if_true, List.dropLast_concat]

/-- Every text is closed from the parts at which it is cut. -/
theorem exists_parts (start : Nat) (text : List Char) :
    ∃ parts, parts ≠ [] ∧ (∀ part ∈ parts, ';' ∉ part) ∧ Closes text (join ';' parts) ∧
      pieces start text = locate start parts := by
  have absent : ∀ part ∈ split ';' text, ';' ∉ part := fun _ => not_mem_of_mem_split
  by_cases closed : 1 < (split ';' text).length ∧ (split ';' text).getLast? = some []
  · obtain ⟨front, cut⟩ := List.getLast?_eq_some_iff.1 closed.2
    have filled : front ≠ [] := by
      rintro rfl
      rw [cut] at closed
      exact absurd closed.1 (Nat.lt_irrefl 1)
    have line := @join_append ';' front [[]] filled (List.cons_ne_nil [] [])
    rw [← cut, join_split] at line
    refine ⟨front, filled, fun part member => ?_, .inr line, ?_⟩
    · rw [cut] at absent
      exact absent part (List.mem_append_left _ member)
    · simp only [pieces, if_pos closed]
      rw [cut, List.dropLast_concat]
  · refine ⟨split ';' text, split_ne_nil ';' text, absent, .inl (join_split ';' text).symm, ?_⟩
    simp only [pieces, if_neg closed]

theorem Closes.exists_tail {others : List (List Char)} (closes : Closes text (join ';' (parts ++ others)))
    (some : parts ≠ []) :
    ∃ tail, text = join ';' parts ++ tail ∧ (tail = [] ∨ ∃ rest, tail = ';' :: rest) := by
  cases others with
  | nil =>
      rw [List.append_nil] at closes
      rcases closes with rfl | rfl
      · exact ⟨[], (List.append_nil _).symm, .inl rfl⟩
      · exact ⟨[';'], rfl, .inr ⟨[], rfl⟩⟩
  | cons other later =>
      rw [join_append some (List.cons_ne_nil other later)] at closes
      rcases closes with rfl | rfl
      · exact ⟨_, rfl, .inr ⟨_, rfl⟩⟩
      · exact ⟨_, List.append_assoc _ _ _, .inr ⟨_, rfl⟩⟩

/-- Parts before a semicolon are cut off, whatever follows it. -/
theorem exists_pieces_semicolon (some : parts ≠ []) (absent : ∀ part ∈ parts, ';' ∉ part)
    (start : Nat) (rest : List Char) :
    ∃ more, pieces start (join ';' parts ++ ';' :: rest) = locate start (parts ++ more) := by
  have cut := split_join_append some absent rest
  by_cases closed : 1 < (parts ++ split ';' rest).length ∧
      (parts ++ split ';' rest).getLast? = Option.some []
  · refine ⟨(split ';' rest).dropLast, ?_⟩
    rw [← List.dropLast_append_of_ne_nil (split_ne_nil ';' rest)]
    simp only [pieces, cut, if_pos closed]
  · refine ⟨split ';' rest, ?_⟩
    simp only [pieces, cut, if_neg closed]

/-- The parts of a text are the first ones of every text that goes on behind a semicolon. -/
theorem Closes.exists_pieces (closes : Closes text (join ';' parts)) (some : parts ≠ [])
    (absent : ∀ part ∈ parts, ';' ∉ part) (start : Nat) (rest : List Char) :
    ∃ more, pieces start (text ++ ';' :: rest) = locate start (parts ++ more) := by
  rcases closes with rfl | rfl
  · exact exists_pieces_semicolon some absent start rest
  · rw [List.append_assoc]
    exact exists_pieces_semicolon some absent start (';' :: rest)

/-- Parts that stand at the front of a text are cut off, whatever follows behind a semicolon. -/
theorem exists_pieces_append (some : parts ≠ []) (absent : ∀ part ∈ parts, ';' ∉ part)
    (filled : ∀ part ∈ parts, part ≠ []) (start : Nat) {tail : List Char}
    (apart : tail = [] ∨ ∃ rest, tail = ';' :: rest) :
    ∃ more, pieces start (join ';' parts ++ tail) = locate start (parts ++ more) := by
  rcases apart with rfl | ⟨rest, rfl⟩
  · refine ⟨[], ?_⟩
    rw [List.append_nil, List.append_nil]
    exact pieces_closed some absent filled (.inl rfl) start
  · exact exists_pieces_semicolon some absent start rest

end RuleText

end Recurrence
