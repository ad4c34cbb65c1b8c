namespace Recurrence

/-! Text cut at a separator.

`split_join` says that cutting undoes joining when no piece holds the separator, and `join_split` that
joining undoes cutting always.  A cut text has at least one piece.
-/

/-- A part of a text with its position. -/
structure Piece where
  start : Nat
  chars : List Char
deriving DecidableEq, Repr

def split (separator : Char) : List Char → List (List Char)
  | [] => [[]]
  | c :: rest =>
      if c = separator then [] :: split separator rest
      else match split separator rest with
        | [] => [[c]]
        | first :: others => (c :: first) :: others

def join (separator : Char) : List (List Char) → List Char
  | [] => []
  | [piece] => piece
  | piece :: rest => piece ++ separator :: join separator rest

def cutAt? (separator : Char) : List Char → Option (List Char × List Char)
  | [] => none
  | c :: rest =>
      if c = separator then some ([], rest)
      else (cutAt? separator rest).map fun halves => (c :: halves.1, halves.2)

theorem split_ne_nil (separator : Char) (text : List Char) : split separator text ≠ [] := by
  cases text with
  | nil => simp [split]
  | cons c rest =>
      unfold split
      split
      · simp
      · split <;> simp

theorem split_of_not_mem {separator : Char} {text : List Char} (absent : separator ∉ text) :
    split separator text = [text] := by
  induction text with
  | nil => rfl
  | cons c rest ih =>
      simp only [List.mem_cons, not_or] at absent
      simp [split, ih absent.2, Ne.symm absent.1]

theorem split_append {separator : Char} {piece : List Char} (rest : List Char)
    (absent : separator ∉ piece) :
    split separator (piece ++ separator :: rest) = piece :: split separator rest := by
  induction piece with
  | nil => simp [split]
  | cons c tail ih =>
      simp only [List.mem_cons, not_or] at absent
      simp [split, ih absent.2, Ne.symm absent.1]

theorem split_join {separator : Char} {pieces : List (List Char)} (nonempty : pieces ≠ [])
    (absent : ∀ piece ∈ pieces, separator ∉ piece) :
    split separator (join separator pieces) = pieces := by
  induction pieces with
  | nil => exact absurd rfl nonempty
  | cons piece rest ih =>
      cases rest with
      | nil => exact split_of_not_mem (absent piece (by simp))
      | cons second others =>
          simp only [join]
          rw [split_append _ (absent piece (by simp)),
            ih (by simp) fun part member => absent part (List.mem_cons_of_mem _ member)]

theorem join_split (separator : Char) (text : List Char) :
    join separator (split separator text) = text := by
  induction text with
  | nil => rfl
  | cons c rest ih =>
      unfold split
      split
      · next same =>
          cases cut : split separator rest with
          | nil => exact absurd cut (split_ne_nil separator rest)
          | cons first others =>
              rw [cut] at ih
              simp [join, ih, same]
      · cases cut : split separator rest with
        | nil => exact absurd cut (split_ne_nil separator rest)
        | cons first others =>
            rw [cut] at ih
            cases others with
            | nil =>
                simp only [join] at ih
                simp [join, ih]
            | cons second more =>
                simp only [join] at ih
                simp [join, ih]

/-- Cutting at the first separator keeps the text, and the first half holds none. -/
theorem cutAt?_eq_some {separator : Char} {text first second : List Char} :
    cutAt? separator text = some (first, second) ↔
      text = first ++ separator :: second ∧ separator ∉ first := by
  induction text generalizing first with
  | nil => simp [cutAt?]
  | cons c rest ih =>
      unfold cutAt?
      split
      · next same =>
          subst same
          cases first with
          | nil => simp
          | cons d tail =>
              simp only [Option.some.injEq, Prod.mk.injEq, reduceCtorEq, false_and, List.cons_append,
                List.cons.injEq, List.mem_cons, not_or, false_iff]
              intro both
              exact both.2.1 both.1.1
      · next differs =>
          cases first with
          | nil =>
              simp only [Option.map_eq_some_iff, Prod.mk.injEq, reduceCtorEq, false_and,
                and_false, exists_false, List.nil_append, List.cons.injEq, false_iff]
              intro both
              exact differs both.1.1
          | cons d tail =>
              simp only [Option.map_eq_some_iff, Prod.mk.injEq, List.cons.injEq, Prod.exists,
                List.cons_append, List.mem_cons, not_or]
              constructor
              · rintro ⟨half, other, found, ⟨rfl, rfl⟩, rfl⟩
                obtain ⟨same, absent⟩ := ih.1 found
                exact ⟨⟨rfl, same⟩, fun equal => differs equal.symm, absent⟩
              · rintro ⟨⟨rfl, same⟩, _, absent⟩
                exact ⟨tail, second, ih.2 ⟨same, absent⟩, ⟨rfl, rfl⟩, rfl⟩

end Recurrence
