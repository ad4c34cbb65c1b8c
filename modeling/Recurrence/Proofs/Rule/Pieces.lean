import Recurrence.Proofs.Rule.Element
import Recurrence.Rule.Reader

namespace Recurrence

/-! The reader of pieces.

It cuts a rule text at its semicolons, commas and equals signs before it reads anything, and every piece
carries its position.  What a rule text means is said of this reader, and the reader that goes through the
text in place gives the same (`RuleText.scanRule_eq_readAt`).
-/

/-- Attaches the starts to the pieces of a text whose first piece is at `start`. -/
def locate (start : Nat) : List (List Char) → List Piece
  | [] => []
  | chars :: rest => ⟨start, chars⟩ :: locate (start + chars.length + 1) rest

namespace Until

def namesZone (value : List Char) : Bool := "TZID=".toList.isPrefixOf value

def isUtc (value : List Char) : Bool :=
  !namesZone value && value.length = 16 && value.getLast? = some 'Z'

/-- What is shown of a bad value: all but the mark of UTC. -/
def shown (value : List Char) : List Char := if isUtc value then value.dropLast else value

/-- The zone that a value names and the date that is left. -/
def zoned [Zone.Directory] (value : List Char) : Except RuleFault (Option Zone × List Char) :=
  if namesZone value then
    match cutAt? ':' value with
    | none => .error .zoneWithoutColon
    | some (named, date) =>
        let name := String.ofList (named.drop 5)
        match Zone.resolve? name with
        | none => .error (.unknownZone name)
        | some zone => .ok (some zone, date)
  else if isUtc value then .ok (some .utc, value.dropLast)
  else .ok (none, value)

def twoDigits (domain : Domain) (date : List Char) (index : Nat) : Option Int :=
  domain.read ((date.drop index).take 2)

/-- The hour, minute and second of a date, midnight when it has none. -/
def timeOfDay (date : List Char) : Option (Int × Int × Int) :=
  if date.length = 8 then some (0, 0, 0)
  else if date.length = 15 ∧ date[8]? = some 'T' then do
    let hour ← twoDigits ⟨0, 23, true⟩ date 9
    let minute ← twoDigits ⟨0, 59, true⟩ date 11
    let second ← twoDigits ⟨0, 60, true⟩ date 13
    return (hour, minute, second)
  else none

def parts? (date : List Char) : Option DateParts := do
  let time ← timeOfDay date
  let year ← Digits.readNat (date.take 4)
  let month ← twoDigits ⟨1, 12, true⟩ date 4
  let day ← twoDigits ⟨1, 31, true⟩ date 6
  return ⟨year, month, day, time.1, time.2.1, time.2.2⟩

/-- Reads a value; none when the date cannot be localized in the calendar. -/
def read [Zone.Directory] (calendar : Calendar) (value : List Char) :
    Except RuleFault (Option Moment) := do
  let (zone, date) ← zoned value
  match parts? date with
  | none => throw (.badValue "UNTIL" (String.ofList (shown value)))
  | some parts =>
      match calendar.makeDate parts zone with
      | .error fault => throw (.impossibleDate parts fault)
      | .ok moment => return moment

end Until

namespace RuleText

theorem mapError_ok {ε ε' α : Type} (name : ε → ε') (value : α) :
    (Except.ok value).mapError name = .ok value := rfl

structure Assignment where
  start : Nat
  key : String
  value : Piece
deriving DecidableEq, Repr

/-- Takes a piece apart at its first equals sign. -/
def assignment (piece : Piece) : Except Finding Assignment :=
  match cutAt? '=' piece.chars with
  | none => .error ⟨.missingEquals, piece.start, none, some (String.ofList piece.chars)⟩
  | some (key, value) =>
      .ok ⟨piece.start, String.ofList key, ⟨piece.start + key.length + 1, value⟩⟩

/-- Reads a number that must be positive and without a sign. -/
def readPositive (key : String) (value : Piece) : Except Finding Int :=
  match Digits.readNat value.chars with
  | some (number + 1) => .ok (number + 1 : Nat)
  | _ => .error (badValue key value)

def elements (value : Piece) : List Piece := locate value.start (split ',' value.chars)

/-- Reads all elements; the first bad one spoils the list. -/
def readElements (read : List Char → Option α) (key : String) : List Piece → Except Finding (List α)
  | [] => .ok []
  | piece :: rest =>
      match read piece.chars with
      | none => .error (badValue key piece)
      | some element => (readElements read key rest).map fun others => element :: others

def readRestriction (rule : Rule) (part : Part) (assigned : Assignment) : Except Finding Rule :=
  match part with
  | .weekday =>
      (readElements DayEntry.read assigned.key (elements assigned.value)).map fun entries =>
        { rule with weekdays := entries }
  | part =>
      (readElements part.domain.read assigned.key (elements assigned.value)).map fun numbers =>
        rule.withNumbers part numbers

section

variable [Zone.Directory]

def readLastDate (calendar : Calendar) (assigned : Assignment) : Except Stop Moment :=
  match Until.read calendar assigned.value.chars with
  | .error fault =>
      .error (.fault (complaint fault "UNTIL" ⟨assigned.value.start, Until.shown assigned.value.chars⟩))
  | .ok none => .error .outOfRange
  | .ok (some date) => .ok date

def assign (calendar : Calendar) (rule : Rule) (key : Key) (assigned : Assignment) :
    Except Stop Rule :=
  match key with
  | .lastDate => do
      (checkEnding rule assigned.key assigned.value.start).mapError .fault
      let date ← readLastDate calendar assigned
      return { rule with ending := .afterDate date.truncate }
  | .count =>
      (do
        checkEnding rule assigned.key assigned.value.start
        let count ← readPositive assigned.key assigned.value
        return { rule with ending := .afterCount count }).mapError .fault
  | .interval =>
      ((readPositive assigned.key assigned.value).map fun interval =>
        { rule with interval }).mapError .fault
  | .restriction part => (readRestriction rule part assigned).mapError .fault

def readLater (calendar : Calendar) : List String → Rule → List Piece → Except Stop Rule
  | _, rule, [] => .ok rule
  | seen, rule, piece :: rest => do
      let assigned ← (assignment piece).mapError .fault
      let key ← (recognize seen assigned.key assigned.start).mapError .fault
      let extended ← assign calendar rule key assigned
      readLater calendar (assigned.key :: seen) extended rest

theorem readLater_of_recognize {calendar : Calendar} {seen : List String} {rule : Rule} {piece : Piece}
    {assigned : Assignment} {key : Key} (isAssigned : assignment piece = .ok assigned)
    (known : recognize seen assigned.key assigned.start = .ok key) (rest : List Piece) :
    readLater calendar seen rule (piece :: rest) =
      assign calendar rule key assigned >>= fun extended =>
        readLater calendar (assigned.key :: seen) extended rest := by
  rw [readLater, isAssigned, mapError_ok]
  simp only [bind, Except.bind, known, mapError_ok]

end

def readFirst (piece : Piece) : Except Finding Rule := do
  let assigned ← assignment piece
  if assigned.key ≠ "FREQ" then
    throw ⟨.frequencyNotFirst, assigned.start, some assigned.key, none⟩
  let frequency ← readFrequency assigned.value
  return { frequency }

/-- The pieces of a rule text; one semicolon at the end separates nothing. -/
def pieces (start : Nat) (text : List Char) : List Piece :=
  let cut := split ';' text
  locate start (if 1 < cut.length ∧ cut.getLast? = some [] then cut.dropLast else cut)

def readAt [Zone.Directory] (calendar : Calendar) (start : Nat) (text : List Char) :
    Except Stop Rule :=
  let fault (finding : Finding) : Except Stop Rule := .error (.fault finding)
  if text.isEmpty then fault ⟨.empty, start, none, none⟩
  else
    match pieces start text with
    | [] => fault ⟨.empty, start, none, none⟩
    | first :: rest =>
        match readFirst first with
        | .error finding => fault finding
        | .ok rule => readLater calendar ["FREQ"] rule rest

/-- The line that begins at a position and ends before a line break or before `stop`.  A negative
`stop` counts from the end of the text, and then the line is empty unless a line break ends it. -/
def window (text : List Char) (start : Nat) (stop : Option Int) : List Char :=
  match stop with
  | none => (text.drop start).takeWhile fun c => !isLineBreak c
  | some (.ofNat stop) => ((text.take stop).drop start).takeWhile fun c => !isLineBreak c
  | some (.negSucc back) =>
      let reach := (text.take (text.length - (back + 1))).drop start
      if reach.any isLineBreak then reach.takeWhile fun c => !isLineBreak c else []

end RuleText

end Recurrence
