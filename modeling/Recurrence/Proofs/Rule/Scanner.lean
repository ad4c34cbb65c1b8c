import Recurrence.Proofs.Rule.Pieces
import Recurrence.Proofs.Rule.Stretch

namespace Recurrence

/-! Values that are read in place.

As long as it stands in the text as a whole, a value gives what the reader of pieces makes of it: the same
date, number, list or fault, and it never asks for a character behind the end of the text
(`RuleText.scanAssigned_of_within`).
-/

namespace Until

variable {value date : Stretch}

theorem scanUtc_of_within (within : value.isWithin = true) (unnamed : namesZone value.chars = false) :
    scanUtc value = some (isUtc value.chars) := by
  have length := Stretch.length_chars within
  have inText := Stretch.le_of_within within
  unfold scanUtc isUtc
  rw [unnamed, length]
  by_cases sixteen : value.stop - value.start = 16
  · have last : value.chars.getLast? = value.text[value.stop - 1]? := by
      have place : value.stop - 1 = value.start + 15 := by omega
      rw [List.getLast?_eq_getElem?, length, sixteen, place, Stretch.text_getElem? (by omega)]
    have here : value.stop - 1 < value.text.length := by omega
    rw [if_pos sixteen, last, List.getElem?_eq_getElem here, Option.map_some, Option.some.injEq,
      Bool.eq_iff_iff]
    simp [sixteen]
  · simp [sixteen]

theorem scanField_of_within (within : date.isWithin = true) (domain : Domain) {distance : Nat}
    (inside : date.start + distance + 2 ≤ date.stop) :
    scanField date domain distance = some (twoDigits domain date.chars distance) := by
  have fieldWithin :
      (⟨date.text, date.start + distance, date.start + distance + 2⟩ : Stretch).isWithin = true :=
    Stretch.isWithin_of_le within inside
  rw [scanField, Stretch.scanBounded_of_within domain fieldWithin, date.chars_field inside, twoDigits]

/-- The fields of the time of day in place.  Where there are any the date has its eight digits. -/
theorem scanTime_of_within (within : date.isWithin = true) :
    ∃ time, scanTime date = some time ∧
      timeOfDay date.chars = (time.bind fun fields =>
        fields.1.bind fun hour => fields.2.1.bind fun minute => fields.2.2.map fun second =>
          (hour, minute, second)) ∧
      (time.isSome = true → date.start + 8 ≤ date.stop) := by
  have length := Stretch.length_chars within
  unfold scanTime timeOfDay
  rw [length]
  by_cases short : date.stop - date.start = 8
  · rw [if_pos short, if_pos short]
    exact ⟨_, rfl, rfl, fun _ => by omega⟩
  · rw [if_neg short, if_neg short]
    by_cases long : date.stop - date.start = 15
    · have inText := Stretch.le_of_within within
      have here : date.start + 8 < date.text.length := by omega
      have mark : date.chars[8]? = some date.text[date.start + 8] := by
        rw [← List.getElem?_eq_getElem here, Stretch.text_getElem? (by omega)]
      rw [if_pos long, List.getElem?_eq_getElem here, mark, long]
      simp only [Option.some.injEq, true_and]
      by_cases isMark : date.text[date.start + 8] = 'T'
      · rw [if_pos isMark, if_pos isMark, scanField_of_within within _ (by omega),
          scanField_of_within within _ (by omega), scanField_of_within within _ (by omega)]
        refine ⟨_, rfl, ?_, fun _ => by omega⟩
        simp only [Option.bind_some, Option.bind_eq_bind, Option.pure_def, Option.map_eq_bind]
        rfl
      · rw [if_neg isMark, if_neg isMark]
        exact ⟨_, rfl, rfl, nofun⟩
    · rw [if_neg long, if_neg fun both => long both.1]
      exact ⟨_, rfl, rfl, nofun⟩

theorem scanParts_of_within (within : date.isWithin = true) :
    scanParts date = some (parts? date.chars) := by
  obtain ⟨time, isTime, timeOfDay_eq, long⟩ := scanTime_of_within within
  unfold scanParts parts?
  rw [isTime, timeOfDay_eq]
  cases time with
  | none => rfl
  | some fields =>
      have digits := long rfl
      have yearWithin : (⟨date.text, date.start, date.start + 4⟩ : Stretch).isWithin = true :=
        Stretch.isWithin_of_le within (by omega)
      have year := date.chars_field (show date.start + 0 + 4 ≤ date.stop by omega)
      rw [Nat.add_zero, List.drop_zero] at year
      simp only [Option.bind_some, Option.bind_eq_bind, Option.pure_def]
      rw [Stretch.scanNat_of_within yearWithin, year, scanField_of_within within _ (by omega),
        scanField_of_within within _ (by omega)]
      obtain ⟨hour, minute, second⟩ := fields
      cases hour <;> cases minute <;> cases second <;>
        cases Digits.readNat (date.chars.take 4) <;>
        cases twoDigits ⟨1, 12, true⟩ date.chars 4 <;>
        cases twoDigits ⟨1, 31, true⟩ date.chars 6 <;> rfl

variable [Zone.Directory]

/-- What is found in place of a zone and a date are those of the characters, and what is shown of a bad date
ends where the date does. -/
structure Finds (value : Stretch) (read : Except RuleFault (Option Zone × Stretch)) : Prop where
  zoned_eq : zoned value.chars = read.map fun found => (found.1, found.2.chars)
  whole : ∀ fault, read = .error fault → shown value.chars = value.chars
  bounds : ∀ found, read = .ok found → found.2.isWithin = true ∧
    shown value.chars = { value with stop := found.2.stop }.chars

theorem Finds.ofDate {zone : Option Zone} (zoned_eq : zoned value.chars = .ok (zone, date.chars))
    (within : date.isWithin = true)
    (shown_eq : shown value.chars = { value with stop := date.stop }.chars) :
    Finds value (.ok (zone, date)) where
  zoned_eq := zoned_eq
  whole := fun _ failed => by cases failed
  bounds := fun _ same => by
    cases same
    exact ⟨within, shown_eq⟩

theorem Finds.ofFault {fault : RuleFault} (zoned_eq : zoned value.chars = .error fault)
    (shown_eq : shown value.chars = value.chars) : Finds value (.error fault) where
  zoned_eq := zoned_eq
  whole := fun _ _ => shown_eq
  bounds := fun _ found => by cases found

theorem scanZoned_of_named (within : value.isWithin = true) (names : namesZone value.chars = true) :
    ∃ read, scanZoned value = some read ∧ Finds value read := by
  have starts : value.startsWith "TZID=" = true := names
  have whole : shown value.chars = value.chars := by
    rw [shown, isUtc, names]
    rfl
  unfold scanZoned
  rw [if_pos starts]
  cases found : value.find? ':' with
  | none =>
      refine ⟨_, rfl, .ofFault ?_ whole⟩
      rw [zoned, if_pos names, Stretch.cutAt?_chars, found]
      rfl
  | some colon =>
      have name : ({ value with stop := colon } : Stretch).chars.drop 5 =
          { value with start := value.start + 5, stop := colon }.chars := by
        rw [Stretch.chars, Stretch.chars, List.drop_drop]
      simp only
      cases known : Zone.resolve? (String.ofList
          { value with start := value.start + 5, stop := colon }.chars) with
      | none =>
          refine ⟨_, rfl, .ofFault ?_ whole⟩
          rw [zoned, if_pos names, Stretch.cutAt?_chars, found]
          simp only [Option.map_some, name, known]
      | some zone =>
          refine ⟨_, rfl, .ofDate ?_ within whole⟩
          rw [zoned, if_pos names, Stretch.cutAt?_chars, found]
          simp only [Option.map_some, name, known]

theorem scanZoned_of_unnamed (within : value.isWithin = true)
    (unnamed : namesZone value.chars = false) :
    ∃ read, scanZoned value = some read ∧ Finds value read := by
  have starts : ¬value.startsWith "TZID=" = true := Bool.eq_false_iff.mp unnamed
  unfold scanZoned
  rw [if_neg starts, scanUtc_of_within within unnamed]
  cases utc : isUtc value.chars with
  | true =>
      have front : value.chars.dropLast = { value with stop := value.stop - 1 }.chars := by
        rw [List.dropLast_eq_take, Stretch.length_chars within, Stretch.chars_eq, Stretch.chars_eq,
          List.take_take]
        congr 1
        dsimp only
        omega
      refine ⟨_, rfl, .ofDate ?_ (Stretch.isWithin_of_le within (Nat.sub_le _ _)) ?_⟩
      · rw [zoned, unnamed, if_neg Bool.false_ne_true, utc, if_pos rfl, front]
      · rw [shown, utc, if_pos rfl, front]
  | false =>
      refine ⟨_, rfl, .ofDate ?_ within ?_⟩
      · rw [zoned, unnamed, if_neg Bool.false_ne_true, utc, if_neg Bool.false_ne_true]
      · rw [shown, utc, if_neg Bool.false_ne_true]

theorem scanZoned_of_within (within : value.isWithin = true) :
    ∃ read, scanZoned value = some read ∧ Finds value read := by
  cases names : namesZone value.chars with
  | true => exact scanZoned_of_named within names
  | false => exact scanZoned_of_unnamed within names

end Until

namespace RuleText

/-- The first element of a stretch and the others, as its first comma parts them. -/
theorem elements_eq_cons (stretch : Stretch) :
    elements stretch.piece =
      ⟨stretch.start, { stretch with stop := (stretch.find? ',').getD stretch.stop }.chars⟩ ::
        match stretch.find? ',' with
        | none => []
        | some comma => elements { stretch with start := comma + 1 }.piece := by
  cases found : stretch.find? ',' with
  | none =>
      rw [elements, Stretch.piece, split_of_not_mem (Stretch.find?_eq_none.mp found)]
      rfl
  | some comma =>
      obtain ⟨parts, noComma, place⟩ := Stretch.chars_of_find? found
      rw [elements, Stretch.piece, parts, split_append _ noComma, locate, ← place]
      rfl

/-- Reading a list in place reads the elements between its commas, and tells the same bad element, when
reading one element in place reads its characters. -/
theorem scanList_of_within {α : Type} {element : Stretch → Option (Option α)}
    {read : List Char → Option α} (key : String)
    (reads : ∀ part : Stretch, part.isWithin = true → element part = some (read part.chars))
    (stretch : Stretch) (within : stretch.isWithin = true) :
    scanList element key stretch = some (readElements read key (elements stretch.piece)) := by
  -- Every round of the reading is inside the text if the whole stretch is, and so is its first element.
  fun_induction scanList element key stretch with
  | case1 stretch first nothing =>
      rw [reads first (Stretch.isWithin_of_find? within)] at nothing
      contradiction
  | case2 stretch first bad =>
      rw [reads first (Stretch.isWithin_of_find? within), Option.some.injEq] at bad
      rw [elements_eq_cons, readElements, bad]
  | case3 stretch first value isValue ended =>
      rw [reads first (Stretch.isWithin_of_find? within), Option.some.injEq] at isValue
      rw [elements_eq_cons, readElements, isValue, ended]
      rfl
  | case4 stretch first value isValue comma found ih =>
      rw [reads first (Stretch.isWithin_of_find? within), Option.some.injEq] at isValue
      rw [elements_eq_cons, readElements, isValue, found, ih within]
      rfl

section Values

variable {value : Stretch}

theorem scanElements_of_within {α : Type} {element : Stretch → Option (Option α)}
    {read : List Char → Option α} (key : String)
    (reads : ∀ part : Stretch, part.isWithin = true → element part = some (read part.chars))
    (within : value.isWithin = true) :
    scanElements element key value = (readElements read key (elements value.piece)).mapError .fault := by
  rw [scanElements, scanList_of_within key reads value within]

theorem scanPositive_of_within (key : String) (within : value.isWithin = true) :
    scanPositive key value = (readPositive key value.piece).mapError .fault := by
  have same : value.piece.chars = value.chars := rfl
  rw [scanPositive, readPositive, Stretch.scanNat_of_within within, same]
  cases Digits.readNat value.chars with
  | none => rfl
  | some number => cases number <;> rfl

/-- An assignment where it stands, cut out of the text. -/
def Place.assignment (place : Place) : Assignment := ⟨place.key.start, place.name, place.value.piece⟩

variable {place : Place}

theorem scanRestriction_of_within (rule : Rule) (part : Part) (within : place.value.isWithin = true) :
    scanRestriction rule part place.name place.value =
      (readRestriction rule part place.assignment).mapError .fault := by
  unfold scanRestriction readRestriction
  split
  · rw [scanElements_of_within _ (fun _ => Stretch.scanDay_of_within) within]
    simp only [Place.assignment]
    cases readElements DayEntry.read place.name (elements place.value.piece) <;> rfl
  · rw [scanElements_of_within _ (fun _ => Stretch.scanBounded_of_within _) within]
    simp only [Place.assignment]
    cases readElements part.domain.read place.name (elements place.value.piece) <;> rfl

variable [Zone.Directory]

theorem scanLastDate_of_within (calendar : Calendar) (within : place.value.isWithin = true) :
    scanLastDate calendar place.value = readLastDate calendar place.assignment := by
  obtain ⟨read, isRead, finds⟩ := Until.scanZoned_of_within within
  have chars : place.assignment.value.chars = place.value.chars := rfl
  have start : place.assignment.value.start = place.value.start := rfl
  unfold scanLastDate readLastDate Until.read
  rw [chars, start, isRead, finds.zoned_eq]
  cases read with
  | error fault =>
      rw [finds.whole fault rfl]
      rfl
  | ok found =>
      obtain ⟨zone, date⟩ := found
      obtain ⟨dateWithin, shown⟩ := finds.bounds _ rfl
      simp only [Until.scanParts_of_within dateWithin, shown, Except.map, bind, Except.bind]
      cases Until.parts? date.chars with
      | none => rfl
      | some parts =>
          simp only
          cases calendar.makeDate parts zone with
          | error fault => rfl
          | ok moment => cases moment <;> rfl

theorem scanAssigned_of_within (calendar : Calendar) (rule : Rule) (key : Key)
    (within : place.value.isWithin = true) :
    scanAssigned calendar rule key place = assign calendar rule key place.assignment := by
  cases key with
  | lastDate =>
      rw [scanAssigned, scanLastDate_of_within calendar within]
      rfl
  | count =>
      rw [scanAssigned, scanPositive_of_within place.name within]
      unfold assign
      cases ending : checkEnding rule place.name place.value.start with
      | error finding => simp only [Place.assignment, Stretch.piece, ending]; rfl
      | ok _ =>
          simp only [Place.assignment, Stretch.piece, ending]
          cases readPositive place.name ⟨place.value.start, place.value.chars⟩ <;> rfl
  | interval =>
      rw [scanAssigned, scanPositive_of_within place.name within]
      unfold assign
      simp only [Place.assignment]
      cases readPositive place.name place.value.piece <;> rfl
  | restriction part => exact scanRestriction_of_within rule part within

end Values

end RuleText

end Recurrence
