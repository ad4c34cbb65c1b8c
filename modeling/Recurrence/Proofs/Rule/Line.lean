import Recurrence.Proofs.Rule.Cut
import Recurrence.Proofs.Rule.Scanner

namespace Recurrence.RuleText

/-! The line in which a rule stands.

A rule is read in place, between two positions of a text, and nothing outside them is looked at: the
assignments that are found one after another are the pieces of the line (`scanLater_of_within`), and the line
ends where the first line break or the given end does (`lineEnd_cases`).  So the rule, the fault and the place
of both are those of the line on its own: `scanRule_eq_readAt`.
-/

section Places

variable {text : List Char} {position stop : Nat}

/-- The assignment at a position, up to its semicolon. -/
def wholeAt (text : List Char) (position stop : Nat) : Stretch :=
  ⟨text, position, (Stretch.find? ';' ⟨text, position, stop⟩).getD stop⟩

theorem assignment_wholeAt (text : List Char) (position stop : Nat) :
    assignment (wholeAt text position stop).piece =
      (placeAt text position stop).map Place.assignment := by
  rw [assignment, Stretch.piece, Stretch.cutAt?_chars]
  unfold wholeAt placeAt
  simp only
  cases found : Stretch.find? '='
      ⟨text, position, (Stretch.find? ';' ⟨text, position, stop⟩).getD stop⟩ with
  | none => rfl
  | some equals =>
      have place := (Stretch.chars_of_find? found).2.2
      dsimp only at place
      simp only [Option.map_some, ← place]
      rfl

theorem isWithin_of_placeAt {place : Place} (inside : stop ≤ text.length)
    (found : placeAt text position stop = .ok place) :
    place.value.isWithin = true ∧ place.next ≤ stop := by
  have whole : (⟨text, position, (Stretch.find? ';' ⟨text, position, stop⟩).getD stop⟩ :
      Stretch).isWithin = true := @Stretch.isWithin_of_find? ⟨text, position, stop⟩ ';'
        (decide_eq_true inside)
  unfold placeAt at found
  simp only at found
  split at found
  · contradiction
  · cases found
    refine ⟨whole, ?_⟩
    simp only
    split
    · exact Nat.le_refl stop
    · next semicolon => exact (Stretch.lt_of_find? semicolon).2

theorem pieces_of_not_mem {line : List Char} (absent : ';' ∉ line) (start : Nat) :
    pieces start line = [⟨start, line⟩] := by
  rw [pieces, split_of_not_mem absent]
  simp [locate]

theorem pieces_semicolon {first : List Char} (absent : ';' ∉ first) (start : Nat)
    (others : List Char) :
    pieces start (first ++ ';' :: others) =
      ⟨start, first⟩ :: if others = [] then [] else pieces (start + first.length + 1) others := by
  have cut := split_append others absent
  have nonempty := split_ne_nil ';' others
  have long : 1 < (split ';' (first ++ ';' :: others)).length := by
    have positive := List.length_pos_iff.mpr nonempty
    rw [cut, List.length_cons]
    omega
  have last : (split ';' (first ++ ';' :: others)).getLast? = (split ';' others).getLast? := by
    rw [cut, List.getLast?_cons_of_ne_nil nonempty]
  by_cases closed : others = []
  · subst closed
    rw [pieces]
    simp only [long, last, if_pos]
    rw [cut]
    rfl
  · -- Only an empty text is cut into one empty piece.
    have more : (split ';' others).getLast? = some [] → 1 < (split ';' others).length := by
      intro endsEmpty
      refine Nat.lt_of_not_le fun single => closed ?_
      obtain ⟨only, isOnly⟩ := List.length_eq_one_iff.mp
        (Nat.le_antisymm single (List.length_pos_iff.mpr nonempty))
      rw [isOnly, List.getLast?_singleton, Option.some.injEq] at endsEmpty
      rw [← join_split ';' others, isOnly, endsEmpty]
      rfl
    rw [pieces, pieces, if_neg closed]
    simp only [long, last, true_and]
    by_cases endsEmpty : (split ';' others).getLast? = some []
    · rw [if_pos endsEmpty, if_pos ⟨more endsEmpty, endsEmpty⟩, cut,
        List.dropLast_cons_of_ne_nil nonempty]
      rfl
    · rw [if_neg endsEmpty, if_neg fun both => endsEmpty both.2, cut]
      rfl

/-- The pieces that are left from a position on. -/
def piecesFrom (text : List Char) (position stop : Nat) : List Piece :=
  if position < stop then pieces position (Stretch.chars ⟨text, position, stop⟩) else []

theorem piecesFrom_eq_cons (inside : stop ≤ text.length) (filled : position < stop) :
    piecesFrom text position stop = (wholeAt text position stop).piece ::
      match Stretch.find? ';' ⟨text, position, stop⟩ with
      | none => []
      | some semicolon => piecesFrom text (semicolon + 1) stop := by
  rw [piecesFrom, if_pos filled, wholeAt]
  cases found : Stretch.find? ';' ⟨text, position, stop⟩ with
  | none => exact pieces_of_not_mem (Stretch.find?_eq_none.mp found) position
  | some semicolon =>
      obtain ⟨parts, absent, place⟩ := Stretch.chars_of_find? found
      dsimp only at parts absent place
      have rest : (Stretch.chars ⟨text, semicolon + 1, stop⟩).length = stop - (semicolon + 1) :=
        Stretch.length_chars (decide_eq_true inside)
      rw [parts, pieces_semicolon absent, ← place]
      refine congrArg (_ :: ·) ?_
      simp only [piecesFrom]
      by_cases more : semicolon + 1 < stop
      · rw [if_neg, if_pos more]
        rw [← List.length_eq_zero_iff, rest]
        omega
      · rw [if_pos, if_neg more]
        rw [← List.length_eq_zero_iff, rest]
        omega

theorem piecesFrom_stop (text : List Char) (stop : Nat) : piecesFrom text stop stop = [] :=
  if_neg (Nat.lt_irrefl stop)

/-- What stands behind an assignment are the pieces from its next position on. -/
theorem piecesFrom_of_placeAt {place : Place} (inside : stop ≤ text.length)
    (filled : position < stop) (found : placeAt text position stop = .ok place) :
    piecesFrom text position stop =
      (wholeAt text position stop).piece :: piecesFrom text place.next stop := by
  rw [piecesFrom_eq_cons inside filled]
  refine congrArg (_ :: ·) ?_
  unfold placeAt at found
  simp only at found
  split at found
  · contradiction
  · cases found
    cases Stretch.find? ';' ⟨text, position, stop⟩ with
    | none => exact (piecesFrom_stop text stop).symm
    | some semicolon => rfl

/-- Every fault of an assignment in place is that of its piece. -/
theorem assignment_of_placeAt_error {finding : Finding}
    (failed : placeAt text position stop = .error finding) :
    assignment (wholeAt text position stop).piece = .error finding := by
  rw [assignment_wholeAt, failed]
  rfl

theorem assignment_of_placeAt {place : Place} (found : placeAt text position stop = .ok place) :
    assignment (wholeAt text position stop).piece = .ok place.assignment := by
  rw [assignment_wholeAt, found]
  rfl

variable [Zone.Directory]

/-- Reading on in place reads the pieces that are left, and stops where the rule does. -/
theorem scanLater_of_within (calendar : Calendar) (inside : stop ≤ text.length) (seen : List String)
    (rule : Rule) (ordered : position ≤ stop) :
    scanLater calendar text stop seen rule position =
      (readLater calendar seen rule (piecesFrom text position stop)).map fun rule => (stop, rule) := by
  fun_induction scanLater calendar text stop seen rule position with
  | case1 seen rule position filled finding failed =>
      rw [piecesFrom_eq_cons inside filled, readLater, assignment_of_placeAt_error failed]
      rfl
  | case2 seen rule position filled place found finding failed =>
      rw [piecesFrom_of_placeAt inside filled found, readLater, assignment_of_placeAt found]
      have unknown : recognize seen place.assignment.key place.assignment.start = .error finding := failed
      simp only [mapError_ok, bind, Except.bind, unknown]
      rfl
  | case3 seen rule position filled place found key known failure failed =>
      have within := (isWithin_of_placeAt inside found).1
      rw [scanAssigned_of_within calendar rule key within] at failed
      rw [piecesFrom_of_placeAt inside filled found,
        readLater_of_recognize (assignment_of_placeAt found) known, failed]
      rfl
  | case4 seen rule position filled place found key known extended assigned ih =>
      obtain ⟨within, next⟩ := isWithin_of_placeAt inside found
      rw [scanAssigned_of_within calendar rule key within] at assigned
      rw [piecesFrom_of_placeAt inside filled found,
        readLater_of_recognize (assignment_of_placeAt found) known, assigned, ih next]
      rfl
  | case5 seen rule position ended =>
      have isEnd : position = stop := Nat.le_antisymm ordered (Nat.le_of_not_lt ended)
      rw [isEnd, piecesFrom_stop]
      rfl

end Places

section Lines

variable {text : List Char} {start : Nat}

/-- The characters of a stretch before its first line break. -/
def lineOf (stretch : Stretch) : List Char := stretch.chars.takeWhile fun c => !isLineBreak c

theorem takeWhile_append_lineBreak {line rest : List Char} {c : Char}
    (unbroken : ∀ d ∈ line, isLineBreak d = false) (isBreak : isLineBreak c = true) :
    (line ++ c :: rest).takeWhile (fun d => !isLineBreak d) = line := by
  rw [List.takeWhile_append_of_pos fun d member => by rw [unbroken d member]; rfl,
    List.takeWhile_cons_of_neg (by rw [isBreak]; exact Bool.false_ne_true), List.append_nil]

theorem not_isLineBreak {line : List Char} (noReturn : '\r' ∉ line) (noFeed : '\n' ∉ line) (c : Char)
    (member : c ∈ line) : isLineBreak c = false := by
  have notReturn : c ≠ '\r' := fun same => noReturn (same ▸ member)
  have notFeed : c ≠ '\n' := fun same => noFeed (same ▸ member)
  simp [isLineBreak, notReturn, notFeed]

/-- The first line break of a stretch is the first line feed before its first carriage return. -/
theorem lineOf_eq (stretch : Stretch) :
    let returned := { stretch with stop := (stretch.find? '\r').getD stretch.stop }
    lineOf stretch = { stretch with stop := (returned.find? '\n').getD returned.stop }.chars := by
  intro returned
  have cut : ∃ rest, stretch.chars = returned.chars ++ rest ∧ '\r' ∉ returned.chars ∧
      (rest = [] ∨ ∃ later, rest = '\r' :: later) := by
    cases found : stretch.find? '\r' with
    | none =>
        have same : returned = stretch := by simp only [returned, found, Option.getD_none]
        rw [same]
        exact ⟨[], (List.append_nil _).symm, Stretch.find?_eq_none.mp found, .inl rfl⟩
    | some position =>
        obtain ⟨parts, absent, _⟩ := Stretch.chars_of_find? found
        simp only [returned, found, Option.getD_some]
        exact ⟨_, parts, absent, .inr ⟨_, rfl⟩⟩
  obtain ⟨rest, parts, noReturn, rests⟩ := cut
  rw [lineOf, parts]
  cases found : returned.find? '\n' with
  | none =>
      have unbroken := not_isLineBreak noReturn (Stretch.find?_eq_none.mp found)
      rcases rests with rfl | ⟨later, rfl⟩
      · rw [List.takeWhile_append_of_pos fun c member => by rw [unbroken c member]; rfl,
          List.takeWhile_nil, List.append_nil]
        rfl
      · exact takeWhile_append_lineBreak unbroken (by decide)
  | some position =>
      obtain ⟨lines, noFeed, _⟩ := Stretch.chars_of_find? found
      rw [lines] at noReturn
      have unbroken := not_isLineBreak (fun member => noReturn (List.mem_append_left _ member)) noFeed
      rw [lines, List.append_assoc, List.cons_append]
      exact takeWhile_append_lineBreak unbroken (by decide)

/-- Where the first line of a stretch ends. -/
def breakIn (stretch : Stretch) : Nat :=
  let returned := (stretch.find? '\r').getD stretch.stop
  (Stretch.find? '\n' { stretch with stop := returned }).getD returned

theorem lineOf_eq_chars (stretch : Stretch) :
    lineOf stretch = { stretch with stop := breakIn stretch }.chars :=
  lineOf_eq stretch

theorem find?_getD_le {sign : Char} {stretch : Stretch} :
    (stretch.find? sign).getD stretch.stop ≤ stretch.stop := by
  cases found : stretch.find? sign with
  | none => exact Nat.le_refl _
  | some position => exact Nat.le_of_lt (Stretch.lt_of_find? found).2

theorem breakIn_le (stretch : Stretch) : breakIn stretch ≤ stretch.stop :=
  Nat.le_trans (@find?_getD_le '\n' { stretch with stop := (stretch.find? '\r').getD stretch.stop })
    find?_getD_le

theorem endBefore_natCast (text : List Char) (sign : Char) (start stop : Nat) :
    endBefore text sign start stop = ((Stretch.find? sign ⟨text, start, stop⟩).getD stop : Nat) := by
  rw [endBefore, if_neg (by omega), Int.toNat_natCast]
  cases Stretch.find? sign ⟨text, start, stop⟩ <;> rfl

theorem endBefore_endBefore_natCast (text : List Char) (start stop : Nat) :
    endBefore text '\n' start (endBefore text '\r' start stop) = breakIn ⟨text, start, stop⟩ := by
  rw [endBefore_natCast, endBefore_natCast]
  rfl

theorem endBefore_negSucc (text : List Char) (sign : Char) (start back : Nat) :
    endBefore text sign start (.negSucc back) =
      match Stretch.find? sign ⟨text, start, text.length - (back + 1)⟩ with
      | none => .negSucc back
      | some position => position := by
  have reach : (text.length + Int.negSucc back).toNat = text.length - (back + 1) := by omega
  cases found : Stretch.find? sign ⟨text, start, text.length - (back + 1)⟩ with
  | none | some => simp [endBefore, reach, found]

theorem any_isLineBreak_eq_false {line : List Char} :
    line.any isLineBreak = false ↔ '\r' ∉ line ∧ '\n' ∉ line := by
  rw [List.any_eq_false]
  constructor
  · intro unbroken
    exact ⟨fun member => unbroken _ member (by decide), fun member => unbroken _ member (by decide)⟩
  · intro both c member
    rw [not_isLineBreak both.1 both.2 c member]
    exact Bool.false_ne_true

/-- A line break before an end that counts from the end of the text ends a line.  Where there is none, the
end stays negative. -/
theorem endBefore_endBefore_negSucc (text : List Char) (start back : Nat) :
    let stretch : Stretch := ⟨text, start, text.length - (back + 1)⟩
    let found := endBefore text '\n' start (endBefore text '\r' start (.negSucc back))
    stretch.chars.any isLineBreak = true ∧ found = breakIn stretch ∨
      stretch.chars.any isLineBreak = false ∧ found < 0 := by
  intro stretch found
  have broken {sign : Char} {position : Nat} (isBreak : isLineBreak sign = true)
      (isFound : stretch.find? sign = some position) : stretch.chars.any isLineBreak = true :=
    List.any_eq_true.mpr ⟨sign, Stretch.mem_of_find? isFound, isBreak⟩
  simp only [found, endBefore_negSucc]
  cases returned : stretch.find? '\r' with
  | some position =>
      refine .inl ⟨broken (by decide) returned, ?_⟩
      simp only
      rw [endBefore_natCast, breakIn, returned]
      rfl
  | none =>
      simp only [endBefore_negSucc]
      cases fed : stretch.find? '\n' with
      | some position =>
          refine .inl ⟨broken (by decide) fed, ?_⟩
          simp only [breakIn, returned, Option.getD_none]
          rw [show Stretch.find? '\n' { stretch with stop := stretch.stop } = some position from fed]
          rfl
      | none =>
          exact .inr ⟨any_isLineBreak_eq_false.mpr
            ⟨Stretch.find?_eq_none.mp returned, Stretch.find?_eq_none.mp fed⟩, Int.negSucc_lt_zero back⟩

/-- Where a line ends in place, and what stands there as a line of its own. -/
theorem lineEnd_cases (text : List Char) (start : Nat) (stop : Option Int) :
    (∃ reach, reach ≤ text.length ∧ window text start stop = lineOf ⟨text, start, reach⟩ ∧
      lineEnd text start stop = breakIn ⟨text, start, reach⟩) ∨
    window text start stop = [] ∧ lineEnd text start stop < 0 := by
  match stop with
  | none =>
      refine .inl ⟨text.length, Nat.le_refl _, ?_, endBefore_endBefore_natCast text start _⟩
      rw [lineOf, Stretch.chars, List.take_length]
      rfl
  | some (.ofNat stop) =>
      have given : min (Int.ofNat stop) text.length = (min stop text.length : Nat) := by
        simp only [Int.ofNat_eq_natCast]
        omega
      refine .inl ⟨min stop text.length, Nat.min_le_right _ _, ?_, ?_⟩
      · rw [lineOf, Stretch.chars, ← List.take_eq_take_min]
        rfl
      · rw [lineEnd]
        simp only [given]
        exact endBefore_endBefore_natCast text start _
  | some (.negSucc back) =>
      have given : min (Int.negSucc back) text.length = .negSucc back := by omega
      have same : (text.take (text.length - (back + 1))).drop start =
        Stretch.chars ⟨text, start, text.length - (back + 1)⟩ := rfl
      rw [lineEnd, window]
      simp only [given, same]
      rcases endBefore_endBefore_negSucc text start back with ⟨broken, ends⟩ | ⟨unbroken, negative⟩
      · refine .inl ⟨_, Nat.sub_le _ _, ?_, ends⟩
        rw [if_pos broken]
        rfl
      · exact .inr ⟨by rw [unbroken, if_neg Bool.false_ne_true], negative⟩

end Lines

/-- The first assignment in place is the first piece of the line. -/
theorem readFirst_wholeAt (text : List Char) (position stop : Nat) :
    readFirst (wholeAt text position stop).piece =
      (placeAt text position stop).bind fun place =>
        if place.name ≠ "FREQ" then .error ⟨.frequencyNotFirst, place.key.start, some place.name, none⟩
        else (readFrequency place.value.piece).map fun frequency => { frequency } := by
  rw [readFirst, assignment_wholeAt]
  cases placeAt text position stop with
  | error finding => rfl
  | ok place =>
      simp only [Except.map, bind, Except.bind, Place.assignment]
      split
      · rfl
      · cases readFrequency place.value.piece <;> rfl

variable [Zone.Directory]

/-- Reading up to an end inside the text is reading the characters before it. -/
theorem scanRule_of_lineEnd (calendar : Calendar) {text : List Char} {start stop : Nat}
    {given : Option Int} (inside : stop ≤ text.length) (ends : lineEnd text start given = stop) :
    scanRule calendar text start given =
      (readAt calendar start (Stretch.chars ⟨text, start, stop⟩)).map fun rule =>
        (start + (Stretch.chars ⟨text, start, stop⟩).length, rule) := by
  unfold scanRule
  rw [ends]
  by_cases filled : start < stop
  · have length : (Stretch.chars ⟨text, start, stop⟩).length = stop - start :=
      Stretch.length_chars (decide_eq_true inside)
    have nonempty : (Stretch.chars ⟨text, start, stop⟩).isEmpty = false := by
      rw [List.isEmpty_eq_false_iff, ← List.length_pos_iff, length]
      exact Nat.sub_pos_of_lt filled
    have cut : pieces start (Stretch.chars ⟨text, start, stop⟩) = piecesFrom text start stop :=
      (if_pos filled).symm
    have index : start + (stop - start) = stop := by omega
    simp only [Int.toNat_natCast, if_neg (show ¬(stop : Int) ≤ start by omega), readAt, nonempty, cut,
      length, index, Bool.false_eq_true, if_false]
    cases found : placeAt text start stop with
    | error finding =>
        rw [piecesFrom_eq_cons inside filled]
        simp only [readFirst_wholeAt, found]
        rfl
    | ok place =>
        have next := (isWithin_of_placeAt inside found).2
        rw [piecesFrom_of_placeAt inside filled found]
        simp only [readFirst_wholeAt, found, Except.bind]
        split
        · rfl
        · cases readFrequency place.value.piece with
          | error finding => rfl
          | ok frequency => exact scanLater_of_within calendar inside _ _ next
  · have ended : stop ≤ start := Nat.le_of_not_lt filled
    rw [Stretch.chars_of_empty ended]
    simp only [if_pos (show (stop : Int) ≤ start by omega)]
    rfl

/-- A rule that is read in place is the rule of its line, and reading it stops at the end of the line. -/
theorem scanRule_eq_readAt (calendar : Calendar) (text : List Char) (start : Nat) (stop : Option Int) :
    scanRule calendar text start stop =
      (readAt calendar start (window text start stop)).map fun rule =>
        (start + (window text start stop).length, rule) := by
  rcases lineEnd_cases text start stop with ⟨reach, short, window_eq, lineEnd_eq⟩ | ⟨empty, negative⟩
  · rw [window_eq, lineOf_eq_chars]
    exact scanRule_of_lineEnd calendar (Nat.le_trans (breakIn_le _) short) lineEnd_eq
  · have ended : lineEnd text start stop ≤ start := by omega
    rw [empty, scanRule]
    simp only [if_pos ended]
    rfl

/-- Reading a rule of a larger text is reading its line; a fault is told at its place in the text. -/
theorem readPartial_eq (calendar : Calendar) (text : String) (start : Nat) (stop : Option Int) :
    readPartial calendar text start stop =
      ((readAt calendar start (window text.toList start stop)).map fun rule =>
        (start + (window text.toList start stop).length, rule)).mapError fun failure =>
          failure.about text := by
  rw [readPartial, scanRule_eq_readAt]

end Recurrence.RuleText
