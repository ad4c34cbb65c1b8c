import Recurrence.Proofs.Rule.Acceptance

namespace Recurrence

/-! Where the fault of a text is.

Every reader complains of something that stands in the piece it reads (`Finding.LiesIn`).  Parts are read
one after the other and none is looked at before its turn, so a fault stands in the first part that has
one: the parts before it are a rule by themselves, and what follows it changes nothing
(`RuleText.exists_faulty_part`).
-/

/-- A piece stands in another. -/
def Piece.Within (inner outer : Piece) : Prop :=
  ∃ front back, outer.chars = front ++ inner.chars ++ back ∧ inner.start = outer.start + front.length

namespace Piece

variable {piece inner outer : Piece}

theorem within_refl (piece : Piece) : piece.Within piece :=
  ⟨[], [], (List.append_nil _).symm, rfl⟩

theorem Within.trans (within : piece.Within inner) (further : inner.Within outer) :
    piece.Within outer := by
  obtain ⟨front, back, chars, start⟩ := within
  obtain ⟨before, behind, outerChars, innerStart⟩ := further
  refine ⟨before ++ front, back ++ behind, ?_, ?_⟩
  · simp only [outerChars, chars, List.append_assoc]
  · rw [start, innerStart, List.length_append, Nat.add_assoc]

theorem within_of_prefix {front chars : List Char} {start : Nat} (isFront : front <+: chars) :
    Within ⟨start, front⟩ ⟨start, chars⟩ := by
  obtain ⟨back, rfl⟩ := isFront
  exact ⟨[], back, rfl, rfl⟩

end Piece

/-- The parts of a text stand in it. -/
theorem within_of_mem_locate {separator : Char} {start : Nat} {parts : List (List Char)}
    {piece : Piece} (member : piece ∈ locate start parts) :
    piece.Within ⟨start, join separator parts⟩ := by
  induction parts generalizing start with
  | nil => contradiction
  | cons part rest ih =>
      cases member with
      | head =>
          cases rest with
          | nil => exact Piece.within_refl _
          | cons second later => exact Piece.within_of_prefix (List.prefix_append _ _)
      | tail _ later =>
          cases rest with
          | nil => contradiction
          | cons second others =>
              refine (ih later).trans ⟨part ++ [separator], [], ?_, ?_⟩
              · simp [join]
              · simp [Nat.add_assoc]

namespace RuleText

/-- A finding tells of something that stands in a piece, and a fragment that it shows stands there. -/
def Finding.LiesIn (finding : Finding) (piece : Piece) : Prop :=
  ∃ chars, Piece.Within ⟨finding.position, chars⟩ piece ∧
    ∀ fragment ∈ finding.fragment, fragment.toList = chars

section Readers

variable {rule : Rule} {key : String} {piece inner : Piece}
  {assigned : Assignment} {fault : RuleFault} {finding : Finding}

theorem Finding.LiesIn.trans (lies : finding.LiesIn inner) (within : inner.Within piece) :
    finding.LiesIn piece := by
  obtain ⟨chars, inside, shown⟩ := lies
  exact ⟨chars, inside.trans within, shown⟩

theorem liesIn_complaint : (complaint fault key piece).LiesIn piece := by
  refine ⟨piece.chars, piece.within_refl, fun fragment shown => ?_⟩
  cases shown
  exact String.toList_ofList

/-- What is said of the start of a piece without showing anything lies in it. -/
theorem liesIn_start {told : Option String} : Finding.LiesIn ⟨fault, piece.start, told, none⟩ piece :=
  ⟨[], Piece.within_of_prefix (List.nil_prefix), nofun⟩

/-- The value of an assignment stands behind its equals sign, and the assignment starts its piece. -/
theorem assignment_eq_ok (taken : assignment piece = .ok assigned) :
    assigned.start = piece.start ∧ assigned.value.Within piece ∧ piece.chars ≠ [] := by
  unfold assignment at taken
  split at taken
  · contradiction
  · next front value cut =>
      cases taken
      obtain ⟨whole, _⟩ := cutAt?_eq_some.mp cut
      refine ⟨rfl, ⟨front ++ ['='], [], ?_, ?_⟩, ?_⟩
      · simp [whole]
      · simp [Nat.add_assoc]
      · simp [whole]

theorem liesIn_of_assignment (faulty : assignment piece = .error finding) : finding.LiesIn piece := by
  unfold assignment at faulty
  split at faulty
  · cases faulty
    refine ⟨piece.chars, piece.within_refl, fun fragment shown => ?_⟩
    cases shown
    exact String.toList_ofList
  · contradiction

theorem liesIn_of_readFrequency (faulty : readFrequency piece = .error finding) :
    finding.LiesIn piece := by
  simp only [readFrequency] at faulty
  split at faulty
  · contradiction
  · split at faulty <;>
      · cases faulty
        exact liesIn_complaint

theorem liesIn_of_readPositive (faulty : readPositive key piece = .error finding) :
    finding.LiesIn piece := by
  unfold readPositive at faulty
  split at faulty
  · contradiction
  · cases faulty
    exact liesIn_complaint

theorem exists_of_readElements {α : Type} {read : List Char → Option α} {pieces : List Piece}
    (faulty : readElements read key pieces = .error finding) :
    ∃ piece ∈ pieces, finding.LiesIn piece := by
  induction pieces with
  | nil => contradiction
  | cons piece rest ih =>
      rw [readElements] at faulty
      split at faulty
      · cases faulty
        exact ⟨piece, List.mem_cons_self, liesIn_complaint⟩
      · obtain ⟨later, member, lies⟩ := ih (map_eq_error.mp faulty)
        exact ⟨later, List.mem_cons_of_mem _ member, lies⟩

/-- The first bad element of a list is in the list. -/
theorem liesIn_of_elements {α : Type} {read : List Char → Option α}
    (faulty : readElements read key (elements piece) = .error finding) : finding.LiesIn piece := by
  obtain ⟨element, member, lies⟩ := exists_of_readElements faulty
  have within := @within_of_mem_locate ',' _ _ _ member
  rw [join_split] at within
  exact lies.trans within

theorem liesIn_of_checkEnding (faulty : checkEnding rule key piece.start = .error finding) :
    finding.LiesIn piece := by
  unfold checkEnding at faulty
  split at faulty
  · contradiction
  · cases faulty
    exact liesIn_start

theorem isFront_shown (value : List Char) : Until.shown value <+: value := by
  unfold Until.shown
  split
  · exact value.dropLast_prefix
  · exact value.prefix_refl

theorem liesIn_of_readRestriction {part : Part}
    (faulty : readRestriction rule part assigned = .error finding) : finding.LiesIn assigned.value := by
  unfold readRestriction at faulty
  split at faulty <;> exact liesIn_of_elements (map_eq_error.mp faulty)

theorem mapError_fault_eq_error {α : Type} {result : Except Finding α} :
    result.mapError Stop.fault = .error (.fault finding) ↔ result = .error finding := by
  cases result <;> simp [Except.mapError]

theorem liesIn_of_recognize {seen : List String}
    (faulty : recognize seen key piece.start = .error finding) : finding.LiesIn piece := by
  unfold recognize at faulty
  split at faulty
  · cases faulty
    exact liesIn_start
  · split at faulty
    · cases faulty
      exact liesIn_start
    · contradiction

theorem liesIn_of_readFirst (faulty : readFirst piece = .error finding) : finding.LiesIn piece := by
  rcases bind_eq_error.mp faulty with unassigned | ⟨assigned, taken, faulty⟩
  · exact liesIn_of_assignment unassigned
  · obtain ⟨start, value, _⟩ := assignment_eq_ok taken
    split at faulty
    · cases faulty
      exact start ▸ liesIn_start
    · rcases bind_eq_error.mp faulty with unnamed | ⟨_, _, faulty⟩
      · exact (liesIn_of_readFrequency unnamed).trans value
      · contradiction

end Readers

variable {start : Nat} {text : List Char} {before others : List (List Char)} {finding : Finding}

/-- Parts and the semicolons behind them, as they stand before another part. -/
def closed (parts : List (List Char)) : List Char := parts.flatMap (· ++ [';'])

/-- Reading goes through some parts and stops in the next one, whatever stands behind it. -/
structure StopsIn (reading : List Piece → Except Stop Rule) (start : Nat) (before : List (List Char))
    (part : List Char) (finding : Finding) : Prop where
  filled : ∀ text ∈ before, text ≠ []
  reads : before ≠ [] → ∃ found, reading (locate start before) = .ok found
  lies : finding.LiesIn ⟨start + (closed before).length, part⟩
  stops : ∀ others, reading (locate start (before ++ part :: others)) = .error (.fault finding)

section Run

variable {reading further : List Piece → Except Stop Rule} {part : List Char}

theorem StopsIn.here (lies : finding.LiesIn ⟨start, part⟩)
    (stops : ∀ others, reading (locate start (part :: others)) = .error (.fault finding)) :
    StopsIn reading start [] part finding where
  filled := List.forall_mem_nil _
  reads := fun isFilled => absurd rfl isFilled
  lies := lies
  stops := stops

theorem StopsIn.later {first : List Char} (filled : first ≠ [])
    (goes : ∀ others, reading (locate start (first :: others)) =
      further (locate (start + first.length + 1) others))
    (ends : ∃ found, further [] = .ok found)
    (inRest : StopsIn further (start + first.length + 1) before part finding) :
    StopsIn reading start (first :: before) part finding where
  filled := List.forall_mem_cons.mpr ⟨filled, inRest.filled⟩
  reads := fun _ => by
    rw [goes]
    cases before with
    | nil => exact ends
    | cons second others => exact inRest.reads (List.cons_ne_nil second others)
  lies := by
    have place : start + (closed (first :: before)).length =
        start + first.length + 1 + (closed before).length := by
      simp only [closed, List.flatMap_cons, List.length_append, List.length_singleton]
      omega
    rw [place]
    exact inRest.lies
  stops := fun others => (goes _).trans (inRest.stops others)

end Run

theorem join_closed (part : List Char) :
    join ';' (before ++ part :: others) = closed before ++ join ';' (part :: others) := by
  induction before with
  | nil => rfl
  | cons first rest ih =>
      have more : rest ++ part :: others ≠ [] :=
        List.append_ne_nil_of_right_ne_nil rest (List.cons_ne_nil part others)
      rw [List.cons_append, join_cons more, ih]
      simp [closed]

theorem closed_eq_join (some : before ≠ []) : closed before = join ';' before ++ [';'] := by
  have joined := @join_closed before [] []
  rw [join_append some (List.cons_ne_nil [] [])] at joined
  simpa [join] using joined.symm

/-- A text is cut into a part between semicolons, or ends of the text, and what stands before and
behind it. -/
structure IsPart (text front part behind : List Char) : Prop where
  whole : text = front ++ part ++ behind
  noSemicolon : ';' ∉ part
  starts : front = [] ∨ ∃ line, front = line ++ [';']
  ends : behind = [] ∨ ∃ rest, behind = ';' :: rest

theorem exists_isPart (closes : Closes text (join ';' (before ++ part :: others)))
    (noSemicolon : ';' ∉ part) : ∃ behind, IsPart text (closed before) part behind := by
  have regrouped : before ++ part :: others = before ++ [part] ++ others := List.append_cons _ _ _
  rw [regrouped] at closes
  obtain ⟨behind, whole, ends⟩ := closes.exists_tail (List.concat_ne_nil part before)
  rw [join_closed] at whole
  refine ⟨behind, whole, noSemicolon, ?_, ends⟩
  cases before with
  | nil => exact .inl rfl
  | cons first rest => exact .inr ⟨_, closed_eq_join (List.cons_ne_nil first rest)⟩

/-- The place of a finding, counted in the piece. -/
theorem Finding.LiesIn.place {chars : List Char} (lies : finding.LiesIn ⟨start, chars⟩) :
    ∃ offset ≤ chars.length, finding.position = start + offset ∧
      ∀ fragment ∈ finding.fragment, fragment.toList <+: chars.drop offset := by
  obtain ⟨inner, ⟨front, back, whole, position⟩, shown⟩ := lies
  simp only at whole position
  refine ⟨front.length, ?_, position, fun fragment isShown => ?_⟩
  · rw [whole, List.append_assoc, List.length_append]
    exact Nat.le_add_right _ _
  · rw [shown fragment isShown, whole, List.append_assoc, List.drop_left]
    exact List.prefix_append _ _

/-- Reading a line goes on behind a semicolon, up to the first line break. -/
theorem window_append {line : List Char} (oneLine : ∀ c ∈ line, isLineBreak c = false)
    (more : List Char) : window (line ++ ';' :: more) 0 none = line ++ ';' :: window more 0 none := by
  refine List.takeWhile_append_of_pos fun c member => ?_
  rw [oneLine c member]
  rfl

variable [Zone.Directory] {calendar : Calendar} {rule : Rule} {seen : List String} {piece : Piece}
  {rest : List Piece} {assigned : Assignment} {parts : List (List Char)}

theorem liesIn_of_readLastDate (faulty : readLastDate calendar assigned = .error (.fault finding)) :
    finding.LiesIn assigned.value := by
  unfold readLastDate at faulty
  split at faulty
  · cases faulty
    exact liesIn_complaint.trans (Piece.within_of_prefix (isFront_shown assigned.value.chars))
  · cases faulty
  · cases faulty

/-- Whatever is wrong with an assignment of a known key lies in its value. -/
theorem liesIn_of_assign {known : Key}
    (faulty : assign calendar rule known assigned = .error (.fault finding)) :
    finding.LiesIn assigned.value := by
  cases known with
  | lastDate =>
      rcases bind_eq_error.mp faulty with ended | ⟨_, _, faulty⟩
      · exact liesIn_of_checkEnding (mapError_fault_eq_error.mp ended)
      · rcases bind_eq_error.mp faulty with undated | ⟨_, _, faulty⟩
        · exact liesIn_of_readLastDate undated
        · contradiction
  | count =>
      rw [assign, mapError_fault_eq_error] at faulty
      rcases bind_eq_error.mp faulty with ended | ⟨_, _, faulty⟩
      · exact liesIn_of_checkEnding ended
      · rcases bind_eq_error.mp faulty with uncounted | ⟨_, _, faulty⟩
        · exact liesIn_of_readPositive uncounted
        · contradiction
  | interval =>
      rw [assign, mapError_fault_eq_error, map_eq_error] at faulty
      exact liesIn_of_readPositive faulty
  | restriction part =>
      rw [assign, mapError_fault_eq_error] at faulty
      exact liesIn_of_readRestriction faulty

/-- Reads one part behind FREQ: the keys seen up to its end and the rule so far. -/
def readPart (calendar : Calendar) (seen : List String) (rule : Rule) (piece : Piece) :
    Except Stop (List String × Rule) := do
  let assigned ← (assignment piece).mapError .fault
  let key ← (recognize seen assigned.key assigned.start).mapError .fault
  let extended ← assign calendar rule key assigned
  return (assigned.key :: seen, extended)

theorem readLater_cons : readLater calendar seen rule (piece :: rest) =
    readPart calendar seen rule piece >>= fun reached =>
      readLater calendar reached.1 reached.2 rest := by
  simp only [readLater, readPart, bind_assoc, pure_bind]

theorem chars_ne_nil_of_readPart {reached : List String × Rule}
    (reads : readPart calendar seen rule piece = .ok reached) : piece.chars ≠ [] := by
  obtain ⟨assigned, taken, _⟩ := bind_eq_ok.mp reads
  exact (assignment_eq_ok (mapError_eq_ok.mp taken)).2.2

theorem liesIn_of_readPart (faulty : readPart calendar seen rule piece = .error (.fault finding)) :
    finding.LiesIn piece := by
  rcases bind_eq_error.mp faulty with unassigned | ⟨assigned, taken, faulty⟩
  · exact liesIn_of_assignment (mapError_fault_eq_error.mp unassigned)
  · obtain ⟨starts, value, _⟩ := assignment_eq_ok (mapError_eq_ok.mp taken)
    rcases bind_eq_error.mp faulty with unknown | ⟨key, _, faulty⟩
    · rw [starts] at unknown
      exact liesIn_of_recognize (mapError_fault_eq_error.mp unknown)
    · rcases bind_eq_error.mp faulty with unread | ⟨_, _, faulty⟩
      · exact (liesIn_of_assign unread).trans value
      · contradiction

theorem exists_stopsIn_readLater
    (faulty : readLater calendar seen rule (locate start parts) = .error (.fault finding)) :
    ∃ before part behind, parts = before ++ part :: behind ∧
      StopsIn (readLater calendar seen rule) start before part finding := by
  induction parts generalizing seen rule start with
  | nil => contradiction
  | cons part rest ih =>
      have step (others : List (List Char)) := @readLater_cons _ calendar rule seen ⟨start, part⟩
        (locate (start + part.length + 1) others)
      rw [locate, step] at faulty
      cases reads : readPart calendar seen rule ⟨start, part⟩ with
      | error stop =>
          simp only [reads] at step faulty
          cases faulty
          exact ⟨[], part, rest, rfl, .here (liesIn_of_readPart reads) step⟩
      | ok reached =>
          simp only [reads] at step faulty
          obtain ⟨before, found, behind, rfl, inRest⟩ := ih faulty
          exact ⟨part :: before, found, behind, rfl,
            .later (chars_ne_nil_of_readPart reads) step ⟨_, rfl⟩ inRest⟩

theorem exists_stopsIn_readParts (some : parts ≠ [])
    (faulty : readParts calendar start (locate start parts) = .error (.fault finding)) :
    ∃ before part behind, parts = before ++ part :: behind ∧
      StopsIn (readParts calendar start) start before part finding := by
  cases parts with
  | nil => exact absurd rfl some
  | cons part rest =>
      rw [locate, readParts] at faulty
      cases reads : readFirst ⟨start, part⟩ with
      | error found =>
          have stops (others : List (List Char)) :
              readParts calendar start (locate start (part :: others)) = .error (.fault found) := by
            rw [locate, readParts, reads]
            rfl
          rw [reads] at faulty
          cases faulty
          exact ⟨[], part, rest, rfl, .here (liesIn_of_readFirst reads) stops⟩
      | ok rule =>
          have goes (others : List (List Char)) :
              readParts calendar start (locate start (part :: others)) =
                readLater calendar ["FREQ"] rule (locate (start + part.length + 1) others) := by
            rw [locate, readParts, reads]
            rfl
          have filled : part ≠ [] := by
            rintro rfl
            contradiction
          rw [reads] at faulty
          obtain ⟨before, found, behind, rfl, inRest⟩ := exists_stopsIn_readLater faulty
          exact ⟨part :: before, found, behind, rfl, .later filled goes ⟨rule, rfl⟩ inRest⟩

/-- A fault lies in one part of the text.  What stands before that part is read as a rule, and the fault
stays whatever is written behind the text and a semicolon. -/
theorem exists_faulty_part (filled : text ≠ [])
    (faulty : readAt calendar start text = .error (.fault finding)) :
    ∃ front part behind, IsPart text front part behind ∧
      (∀ line, front = line ++ [';'] → ∃ found, readAt calendar start line = .ok found) ∧
      finding.LiesIn ⟨start + front.length, part⟩ ∧
      ∀ rest, readAt calendar start (text ++ ';' :: rest) = .error (.fault finding) := by
  obtain ⟨parts, some, absent, closes, cut⟩ := exists_parts start text
  rw [readAt_eq_readParts filled, cut] at faulty
  obtain ⟨before, part, others, rfl, stopsIn⟩ := exists_stopsIn_readParts some faulty
  obtain ⟨absentBefore, absentRest⟩ := List.forall_mem_append.mp absent
  obtain ⟨behind, isPart⟩ := exists_isPart closes (absentRest part List.mem_cons_self)
  refine ⟨closed before, part, behind, isPart, fun line same => ?_, stopsIn.lies, fun rest => ?_⟩
  · -- A text that ends in a semicolon stands in front, so there are parts before the faulty one.
    have isFilled : before ≠ [] := by
      rintro rfl
      exact absurd same.symm (List.concat_ne_nil _ _)
    rw [closed_eq_join isFilled, List.append_cancel_right_eq] at same
    subst same
    rw [readAt_eq_readParts (join_ne_nil isFilled stopsIn.filled),
      pieces_closed isFilled absentBefore stopsIn.filled (.inl rfl)]
    exact stopsIn.reads isFilled
  · obtain ⟨more, cutLonger⟩ := closes.exists_pieces some absent start rest
    rw [readAt_eq_readParts (List.append_ne_nil_of_left_ne_nil filled _), cutLonger, List.append_assoc,
      List.cons_append]
    exact stopsIn.stops _

theorem readPartial_eq_rule {subject : String} {error : RuleError} :
    readPartial calendar subject 0 none = .error (.rule error) ↔
      ∃ finding, readAt calendar 0 (window subject.toList 0 none) = .error (.fault finding) ∧
        error = ⟨subject, finding.fault, some finding.position, finding.key, finding.fragment⟩ := by
  rw [readPartial_eq]
  cases readAt calendar 0 (window subject.toList 0 none) with
  | ok rule => simp [Except.map, Except.mapError]
  | error stop => cases stop <;> simp [Except.map, Except.mapError, Stop.about, eq_comm]

/-- An error points at the first faulty part of a line.  Its position is in that part, what stands before
the part is read as a rule, and a fragment that is shown stands at the position.  Whatever is written
behind the line and a semicolon, the error stays. -/
theorem error_points_at_part (calendar : Calendar) {line : String} {error : RuleError}
    (filled : line ≠ "") (oneLine : ∀ c ∈ line.toList, isLineBreak c = false)
    (faulty : readPartial calendar line 0 none = .error (.rule error)) :
    (∃ front part behind position, IsPart line.toList front part behind ∧
      (∀ before, front = before ++ [';'] →
        ∃ found, readPartial calendar (String.ofList before) 0 none = .ok found) ∧
      error.position = some position ∧ front.length ≤ position ∧
      position ≤ front.length + part.length ∧
      ∀ fragment ∈ error.fragment, fragment.toList <+: line.toList.drop position) ∧
    ∀ more : String, readPartial calendar (line ++ ";" ++ more) 0 none =
      .error (.rule { error with subject := line ++ ";" ++ more }) := by
  obtain ⟨finding, stops, rfl⟩ := readPartial_eq_rule.mp faulty
  have isFilled : line.toList ≠ [] := fun empty => filled (String.toList_eq_nil_iff.mp empty)
  rw [window_eq_self oneLine] at stops
  obtain ⟨front, part, behind, isPart, reads, lies, stays⟩ := exists_faulty_part isFilled stops
  constructor
  · obtain ⟨offset, within, position, _⟩ := lies.place
    have inLine : finding.LiesIn ⟨0, line.toList⟩ := lies.trans ⟨front, behind, isPart.whole, rfl⟩
    obtain ⟨index, _, same, shown⟩ := inLine.place
    refine ⟨front, part, behind, finding.position, isPart, fun before same => ?_, rfl, by omega,
      by omega, ?_⟩
    · obtain ⟨found, isRead⟩ := reads before same
      have inBefore : ∀ c ∈ before, isLineBreak c = false := fun c member =>
        oneLine c (by rw [isPart.whole, same]; simp [member])
      rw [readPartial_eq, String.toList_ofList, window_eq_self inBefore, isRead]
      exact ⟨_, rfl⟩
    · rw [same, Nat.zero_add]
      exact shown
  · intro more
    refine readPartial_eq_rule.mpr ⟨finding, ?_, rfl⟩
    have chars : (line ++ ";" ++ more).toList = line.toList ++ ';' :: more.toList := by simp
    rw [chars, window_append oneLine]
    exact stays _

/-- A line with a bad element in its third part and a bad date in its last. -/
def badDaysLine : String := "FREQ=DAILY;COUNT=3;BYDAY=MO,XX;UNTIL=2025"

def badDaysError : RuleError where
  subject := badDaysLine
  fault := .badValue "BYDAY" "XX"
  position := some 28
  key := some "BYDAY"
  fragment := some "XX"

end RuleText

namespace RuleText

attribute [local instance] Zone.table

theorem error_points_at_badDays :
    badDaysLine ≠ "" ∧ (∀ c ∈ badDaysLine.toList, isLineBreak c = false) ∧
      readPartial {} badDaysLine 0 none = .error (.rule badDaysError) ∧
      (∃ front part behind position, IsPart badDaysLine.toList front part behind ∧
        (∀ before, front = before ++ [';'] →
          ∃ found, readPartial {} (String.ofList before) 0 none = .ok found) ∧
        badDaysError.position = some position ∧ front.length ≤ position ∧
        position ≤ front.length + part.length ∧
        ∀ fragment ∈ badDaysError.fragment, fragment.toList <+: badDaysLine.toList.drop position) ∧
      ∀ more : String, readPartial {} (badDaysLine ++ ";" ++ more) 0 none =
        .error (.rule { badDaysError with subject := badDaysLine ++ ";" ++ more }) := by
  have filled : badDaysLine ≠ "" := by decide +kernel
  have oneLine : ∀ c ∈ badDaysLine.toList, isLineBreak c = false :=
    oneLine_of_all (by decide +kernel)
  have faulty : readPartial {} badDaysLine 0 none = .error (.rule badDaysError) := by
    rw [readPartial_eq]
    decide +kernel
  exact ⟨filled, oneLine, faulty, error_points_at_part {} filled oneLine faulty⟩

end RuleText

end Recurrence
