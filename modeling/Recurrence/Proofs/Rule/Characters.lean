import Mathlib.Data.List.TakeWhile
import Recurrence.Proofs.Digits
import Recurrence.Proofs.Rule.Cut
import Recurrence.Proofs.Rule.LastDate
import Recurrence.Rule.Guard
import Recurrence.Proofs.Rule.Pieces

namespace Recurrence.RuleText

/-! The characters of a written rule.

Every assignment that is written consists of plain characters: printable ASCII without a semicolon.  So
a written rule passes the guard, is one line, and is cut exactly where its assignments meet.  The values
are simpler still, but for names of zones: digits, a minus and capitals, with commas between the
elements of a list.
-/

def isPlain (c : Char) : Bool :=
  decide (32 ≤ c.toNat) && decide (c.toNat < 127) && c != ';'

def Plain (chars : List Char) : Prop := chars.all isPlain = true

instance (chars : List Char) : Decidable (Plain chars) :=
  inferInstanceAs (Decidable (chars.all isPlain = true))

theorem plain_iff {chars : List Char} : Plain chars ↔ ∀ c ∈ chars, isPlain c = true :=
  List.all_eq_true

@[simp] theorem plain_cons {c : Char} {chars : List Char} :
    Plain (c :: chars) ↔ isPlain c = true ∧ Plain chars := by
  simp only [plain_iff, List.forall_mem_cons]

@[simp] theorem plain_append {first second : List Char} :
    Plain (first ++ second) ↔ Plain first ∧ Plain second := by
  simp only [plain_iff, List.forall_mem_append]

theorem isPlain_of_isNameChar {c : Char} (inName : Zone.isNameChar c = true) : isPlain c = true := by
  rw [Zone.isNameChar, Bool.and_eq_true] at inName
  exact inName.1

def isSimple (c : Char) : Bool := Digits.isDigit c || c == '-' || ('A' ≤ c && c ≤ 'Z')

def Simple (chars : List Char) : Prop := chars.all isSimple = true

instance (chars : List Char) : Decidable (Simple chars) :=
  inferInstanceAs (Decidable (chars.all isSimple = true))

theorem simple_iff {chars : List Char} : Simple chars ↔ ∀ c ∈ chars, isSimple c = true :=
  List.all_eq_true

@[simp] theorem simple_cons {c : Char} {chars : List Char} :
    Simple (c :: chars) ↔ isSimple c = true ∧ Simple chars := by
  simp only [simple_iff, List.forall_mem_cons]

@[simp] theorem simple_append {first second : List Char} :
    Simple (first ++ second) ↔ Simple first ∧ Simple second := by
  simp only [simple_iff, List.forall_mem_append]

theorem isSimple_of_isDigit {c : Char} (digit : Digits.isDigit c = true) : isSimple c = true := by
  rw [isSimple, digit]
  rfl

theorem bounds_of_isSimple {c : Char} (simple : isSimple c = true) : 45 ≤ c.toNat ∧ c.toNat ≤ 90 := by
  simp only [isSimple, Digits.isDigit, Bool.or_eq_true, Bool.and_eq_true, decide_eq_true_eq,
    beq_iff_eq] at simple
  rcases simple with (digit | rfl) | letter
  · have least : 48 ≤ c.toNat := UInt32.le_iff_toNat_le.1 digit.1
    have greatest : c.toNat ≤ 57 := UInt32.le_iff_toNat_le.1 digit.2
    omega
  · decide
  · have least : 65 ≤ c.toNat := UInt32.le_iff_toNat_le.1 letter.1
    have greatest : c.toNat ≤ 90 := UInt32.le_iff_toNat_le.1 letter.2
    omega

theorem Simple.not_mem {chars : List Char} (simple : Simple chars) {c : Char}
    (special : isSimple c = false) : c ∉ chars := by
  intro member
  rw [simple_iff.1 simple c member] at special
  contradiction

theorem plain_of_simple {chars : List Char} (simple : Simple chars) : Plain chars := by
  refine plain_iff.2 fun c member => ?_
  have bounds := bounds_of_isSimple (simple_iff.1 simple c member)
  have noSemicolon : c ≠ ';' := fun same => simple.not_mem rfl (same ▸ member)
  simp only [isPlain, Bool.and_eq_true, decide_eq_true_eq, bne_iff_ne]
  exact ⟨⟨by omega, by omega⟩, noSemicolon⟩

theorem simple_padded (n : Nat) (width : Int) : Simple (Digits.padded n width) :=
  simple_iff.2 fun _ member => isSimple_of_isDigit (Digits.isDigit_of_mem_padded member)

theorem simple_ofInt (value width : Int) : Simple (Digits.ofInt value width) := by
  refine simple_iff.2 fun c member => ?_
  rcases Digits.eq_minus_or_isDigit member with rfl | digit
  · rfl
  · exact isSimple_of_isDigit digit

theorem plain_ofInt (value width : Int) : Plain (Digits.ofInt value width) :=
  plain_of_simple (simple_ofInt value width)

/-- What holds of the separator and of all pieces holds of the joined text. -/
theorem forall_mem_join {property : Char → Prop} {separator : Char} {pieces : List (List Char)}
    (between : property separator) (each : ∀ piece ∈ pieces, ∀ c ∈ piece, property c) :
    ∀ c ∈ join separator pieces, property c := by
  induction pieces with
  | nil => exact List.forall_mem_nil _
  | cons piece rest ih =>
      obtain ⟨first, others⟩ := List.forall_mem_cons.1 each
      cases rest with
      | nil => exact first
      | cons second more =>
          exact List.forall_mem_append.2 ⟨first, List.forall_mem_cons.2 ⟨between, ih others⟩⟩

theorem plain_join {separator : Char} {pieces : List (List Char)} (between : isPlain separator = true)
    (each : ∀ piece ∈ pieces, Plain piece) : Plain (join separator pieces) :=
  plain_iff.2 (forall_mem_join between fun piece member => plain_iff.1 (each piece member))

theorem simple_text (entry : DayEntry) : Simple entry.text.toList := by
  obtain ⟨ordinal, weekday⟩ := entry
  have code : Simple weekday.code.toList := by cases weekday <;> decide
  cases ordinal with
  | none => exact code
  | some number =>
      simp only [DayEntry.text, Digits.text, String.toList_append, String.toList_ofList, simple_append]
      exact ⟨simple_ofInt number 0, code⟩

/-- What is written for the values of a part, one by one. -/
def elementTexts (rule : Rule) : Part → List (List Char)
  | .weekday => rule.weekdays.map fun entry => entry.text.toList
  | part => (rule.numbers part).map fun number => Digits.ofInt number 0

theorem partValue_eq (rule : Rule) (part : Part) :
    partValue rule part = join ',' (elementTexts rule part) := by
  cases part <;> rfl

theorem simple_elementTexts (rule : Rule) (part : Part) :
    ∀ piece ∈ elementTexts rule part, Simple piece := by
  intro piece member
  cases part with
  | weekday =>
      obtain ⟨entry, _, rfl⟩ := List.mem_map.1 member
      exact simple_text entry
  | _ =>
      obtain ⟨value, _, rfl⟩ := List.mem_map.1 member
      exact simple_ofInt value 0

theorem plain_partValue (rule : Rule) (part : Part) : Plain (partValue rule part) := by
  rw [partValue_eq]
  exact plain_join rfl fun piece member => plain_of_simple (simple_elementTexts rule part piece member)

theorem simple_dateChars (time : WallTime) : Simple (dateChars time) := by
  simp only [dateChars, simple_append, simple_padded, true_and]

theorem simple_dateTimeChars (time : WallTime) : Simple (dateTimeChars time) := by
  simp only [dateTimeChars, simple_append, simple_cons, simple_dateChars, simple_padded, true_and,
    and_true]
  rfl

theorem plain_dateChars (time : WallTime) : Plain (dateChars time) :=
  plain_of_simple (simple_dateChars time)

theorem plain_dateTimeChars (time : WallTime) : Plain (dateTimeChars time) :=
  plain_of_simple (simple_dateTimeChars time)

/-- The form in which a genuine date is written has plain characters, those of its name included. -/
theorem plain_dateForm [Zone.Directory] {calendar : Calendar} {date : Moment} {form : DateForm}
    (genuine : date.Genuine) (formed : dateForm calendar date = some form) : Plain form.chars := by
  have marked (time : WallTime) : Plain (dateTimeChars time ++ ['Z']) :=
    plain_append.2 ⟨plain_dateTimeChars time, by decide⟩
  rcases dateForm_cases formed with ⟨rfl, _⟩ | ⟨rfl, _⟩ | ⟨name, rfl, named⟩ | ⟨rfl, _⟩ |
    ⟨shown, rfl, _⟩
  · exact plain_dateChars date.wall
  · exact marked date.wall
  · obtain ⟨zone, read, resolved, _⟩ := localize_of_zoneName? genuine named
    have plainName : Plain name.toList := plain_iff.2 fun c member =>
      isPlain_of_isNameChar (Zone.isNameChar_of_resolve? resolved c member)
    exact plain_append.2 ⟨plain_append.2 ⟨by decide, plainName⟩,
      plain_cons.2 ⟨rfl, plain_dateTimeChars date.wall⟩⟩
  · exact plain_dateTimeChars date.wall
  · exact marked shown.wall

theorem plain_assigned {key : String} {value : List Char} (plainKey : Plain key.toList)
    (plainValue : Plain value) : Plain (assigned key value) :=
  plain_append.2 ⟨plainKey, plain_cons.2 ⟨rfl, plainValue⟩⟩

theorem plain_key (part : Part) : Plain part.key.toList := by
  cases part <;> decide

theorem findChar_eq_none {property : Char → Bool} {chars : List Char} :
    RuleGuard.findChar property chars = none ↔ ∀ c ∈ chars, property c = false := by
  constructor
  · intro nowhere
    unfold RuleGuard.findChar at nowhere
    split at nowhere
    · contradiction
    · next missing =>
        by_contra somewhere
        simp only [not_forall, Bool.not_eq_false] at somewhere
        obtain ⟨c, member, found⟩ := somewhere
        obtain ⟨index, isIndex⟩ := Option.isSome_iff_exists.1
          ((@List.findIdx?_isSome _ chars property).trans (List.any_eq_true.2 ⟨c, member, found⟩))
        obtain ⟨first, isFirst⟩ := Option.isSome_iff_exists.1
          (List.find?_isSome.2 ⟨c, member, found⟩)
        exact missing index first isIndex isFirst
  · intro nowhere
    have noIndex : chars.findIdx? property = none := List.findIdx?_eq_none_iff.2 nowhere
    rw [RuleGuard.findChar, noIndex]

theorem oneLine_of_all {text : List Char} (whole : (text.all fun c => !isLineBreak c) = true) :
    ∀ c ∈ text, isLineBreak c = false :=
  fun c member => by simpa using List.all_eq_true.1 whole c member

/-- A text without line breaks is one line. -/
theorem window_eq_self {text : List Char} (oneLine : ∀ c ∈ text, isLineBreak c = false) :
    window text 0 none = text := by
  refine List.takeWhile_eq_self_iff.2 fun c member => ?_
  rw [oneLine c member]
  rfl

section Joined

variable {pieces : List (List Char)}

theorem printable_join (plain : ∀ piece ∈ pieces, Plain piece) :
    ∀ c ∈ join ';' pieces, 32 ≤ c.toNat ∧ c.toNat < 127 := by
  refine forall_mem_join (by decide) fun piece member c inPiece => ?_
  have isPlain := plain_iff.1 (plain piece member) c inPiece
  simp only [RuleText.isPlain, Bool.and_eq_true, decide_eq_true_eq] at isPlain
  exact isPlain.1

theorem check_join {limit : Int} (plain : ∀ piece ∈ pieces, Plain piece)
    (nonempty : join ';' pieces ≠ []) (fits : ((join ';' pieces).length : Int) ≤ limit) :
    RuleGuard.checkText (String.ofList (join ';' pieces)) limit =
      .ok (String.ofList (join ';' pieces)) := by
  have printable := printable_join plain
  have ascii := (@findChar_eq_none (fun c => !RuleGuard.isAscii c) (join ';' pieces)).2 fun c member => by
    have small : c.toNat < 128 := Nat.lt_trans (printable c member).2 (by decide)
    simp [RuleGuard.isAscii, small]
  have control := (@findChar_eq_none RuleGuard.isControl (join ';' pieces)).2 fun c member => by
    have bounds := printable c member
    simp only [RuleGuard.isControl, Bool.or_eq_false_iff, decide_eq_false_iff_not]
    omega
  have noFault : RuleGuard.charFault? (String.ofList (join ';' pieces)) = none := by
    rw [RuleGuard.charFault?, String.toList_ofList, ascii, control]
    rfl
  have isText : (String.ofList (join ';' pieces)).isEmpty = false :=
    String.isEmpty_eq_false_iff.2 fun empty => nonempty (String.ofList_eq_empty_iff.1 empty)
  rw [RuleGuard.checkText, isText, String.toList_ofList,
    if_neg Bool.false_ne_true, if_neg (Int.not_lt.2 fits), noFault]

theorem window_join (plain : ∀ piece ∈ pieces, Plain piece) :
    window (join ';' pieces) 0 none = join ';' pieces := by
  refine window_eq_self fun c member => ?_
  have least := (printable_join plain c member).1
  have noReturn : c ≠ '\r' := by
    rintro rfl
    exact absurd least (by decide)
  have noFeed : c ≠ '\n' := by
    rintro rfl
    exact absurd least (by decide)
  simp [isLineBreak, noReturn, noFeed]

/-- Joined plain pieces are cut where they meet. -/
theorem pieces_join (plain : ∀ piece ∈ pieces, Plain piece) (nonempty : pieces ≠ [])
    (filled : ∀ piece ∈ pieces, piece ≠ []) (start : Nat) :
    RuleText.pieces start (join ';' pieces) = locate start pieces := by
  have absent : ∀ piece ∈ pieces, ';' ∉ piece := fun piece member semicolon =>
    absurd (plain_iff.1 (plain piece member) ';' semicolon) (by decide)
  exact pieces_closed nonempty absent filled (.inl rfl) start

end Joined

end Recurrence.RuleText
