import Recurrence.Pieces
import Recurrence.Rule.Guard
import Recurrence.Rule.Until

namespace Recurrence

/-! Reading rule texts.

A rule text is a list of assignments KEY=VALUE with semicolons between them; one semicolon may stand
at the end.  FREQ comes first, every other key at most once and in any order.  The text is read where it
stands, from one position to the next and never behind the end of the rule, so a fault names the place at
which it lies.
-/

namespace RuleText

structure Finding where
  fault : RuleFault
  position : Nat
  key : Option String
  fragment : Option String
deriving DecidableEq, Repr

/-- Why reading stops: a fault, a date that the calendar cannot express, or a character behind the end of
the text. -/
inductive Stop
  | fault (finding : Finding)
  | outOfRange
  | outOfText
deriving DecidableEq, Repr

inductive Key
  | lastDate
  | count
  | interval
  | restriction (part : Part)
deriving DecidableEq, Repr

def Key.ofText? (text : String) : Option Key :=
  if text = "UNTIL" then some .lastDate
  else if text = "COUNT" then some .count
  else if text = "INTERVAL" then some .interval
  else (Part.ofKey? text).map .restriction

def complaint (fault : RuleFault) (key : String) (piece : Piece) : Finding :=
  ⟨fault, piece.start, some key, some (String.ofList piece.chars)⟩

def badValue (key : String) (piece : Piece) : Finding :=
  complaint (.badValue key (String.ofList piece.chars)) key piece

end RuleText

/-- What stands in a stretch, with its position. -/
def Stretch.piece (stretch : Stretch) : Piece := ⟨stretch.start, stretch.chars⟩

namespace RuleText

/-- An assignment where it stands, and the position behind it and its semicolon. -/
structure Place where
  key : Stretch
  value : Stretch
  next : Nat

def Place.name (place : Place) : String := String.ofList place.key.chars

/-- Finds the assignment at a position.  Its key ends at its first equals sign. -/
def placeAt (text : List Char) (position stop : Nat) : Except Finding Place :=
  let semicolon := Stretch.find? ';' ⟨text, position, stop⟩
  let whole : Stretch := ⟨text, position, semicolon.getD stop⟩
  match whole.find? '=' with
  | none => .error ⟨.missingEquals, position, none, some (String.ofList whole.chars)⟩
  | some equals =>
      .ok ⟨{ whole with stop := equals }, { whole with start := equals + 1 },
        match semicolon with
        | none => stop
        | some position => position + 1⟩

theorem lt_of_placeAt {text : List Char} {position stop : Nat} {place : Place}
    (found : placeAt text position stop = .ok place) (inside : position < stop) :
    position < place.next := by
  unfold placeAt at found
  simp only at found
  split at found
  · contradiction
  · cases found
    simp only
    split
    · exact inside
    · next semicolon => exact Nat.lt_succ_of_le (Stretch.lt_of_find? semicolon).1

def readFrequency (value : Piece) : Except Finding Frequency :=
  let text := String.ofList value.chars
  match Frequency.ofName? text with
  | some frequency => .ok frequency
  | none =>
      if text = "SECONDLY" then .error (complaint (.unsupportedFrequency text) "FREQ" value)
      else .error (complaint (.unknownFrequency text) "FREQ" value)

/-- Reads a number that must be positive and without a sign. -/
def scanPositive (key : String) (value : Stretch) : Except Stop Int :=
  match value.scanNat with
  | none => .error .outOfText
  | some (some (number + 1)) => .ok (number + 1 : Nat)
  | some _ => .error (.fault (badValue key value.piece))

/-- Reads the elements of a list where they stand; the first bad one spoils the list.  There is no answer
when an element runs out of text. -/
def scanList {α : Type} (element : Stretch → Option (Option α)) (key : String) (stretch : Stretch) :
    Option (Except Finding (List α)) :=
  let first : Stretch := { stretch with stop := (stretch.find? ',').getD stretch.stop }
  match element first with
  | none => none
  | some none => some (.error (badValue key ⟨first.start, first.chars⟩))
  | some (some value) =>
      match _found : stretch.find? ',' with
      | none => some (.ok [value])
      | some comma =>
          (scanList element key { stretch with start := comma + 1 }).map
            (Except.map fun others => value :: others)
termination_by stretch.stop - stretch.start
decreasing_by
  have bounds := Stretch.lt_of_find? _found
  omega

def scanElements {α : Type} (element : Stretch → Option (Option α)) (key : String) (value : Stretch) :
    Except Stop (List α) :=
  match scanList element key value with
  | none => .error .outOfText
  | some read => read.mapError .fault

def scanRestriction (rule : Rule) (part : Part) (key : String) (value : Stretch) : Except Stop Rule :=
  match part with
  | .weekday =>
      (scanElements Stretch.scanDay key value).map fun entries => { rule with weekdays := entries }
  | part =>
      (scanElements (Stretch.scanBounded part.domain) key value).map fun numbers =>
        rule.withNumbers part numbers

/-- A rule may end in one way only. -/
def checkEnding (rule : Rule) (key : String) (start : Nat) : Except Finding Unit :=
  if rule.ending.isNever then .ok ()
  else .error ⟨.countWithUntil, start, some key, none⟩

/-- Recognizes the key of a later assignment, which must be known and new. -/
def recognize (seen : List String) (key : String) (start : Nat) : Except Finding Key :=
  if key ∈ seen then .error ⟨.duplicatePart key, start, some key, none⟩
  else
    match Key.ofText? key with
    | none => .error ⟨.unknownPart key, start, some key, none⟩
    | some known => .ok known

section

variable [Zone.Directory]

/-- Reads a last date.  A fault shows the whole value, but for the mark of UTC. -/
def scanLastDate (calendar : Calendar) (value : Stretch) : Except Stop Moment :=
  match Until.scanZoned value with
  | none => .error .outOfText
  | some (.error fault) => .error (.fault (complaint fault "UNTIL" value.piece))
  | some (.ok (zone, date)) =>
      let shown := { value with stop := date.stop }.piece
      match Until.scanParts date with
      | none => .error .outOfText
      | some none => .error (.fault (badValue "UNTIL" shown))
      | some (some parts) =>
          match calendar.makeDate parts zone with
          | .error fault => .error (.fault (complaint (.impossibleDate parts fault) "UNTIL" shown))
          | .ok none => .error .outOfRange
          | .ok (some date) => .ok date

def scanAssigned (calendar : Calendar) (rule : Rule) (key : Key) (place : Place) : Except Stop Rule :=
  match key with
  | .lastDate => do
      (checkEnding rule place.name place.value.start).mapError .fault
      let date ← scanLastDate calendar place.value
      return { rule with ending := .afterDate date.truncate }
  | .count => do
      (checkEnding rule place.name place.value.start).mapError .fault
      let count ← scanPositive place.name place.value
      return { rule with ending := .afterCount count }
  | .interval =>
      (scanPositive place.name place.value).map fun interval => { rule with interval }
  | .restriction part => scanRestriction rule part place.name place.value

/-- Reads the assignments from a position on.  The answer holds the position at which they end. -/
def scanLater (calendar : Calendar) (text : List Char) (stop : Nat) (seen : List String) (rule : Rule)
    (position : Nat) : Except Stop (Nat × Rule) :=
  if _inside : position < stop then
    match _found : placeAt text position stop with
    | .error finding => .error (.fault finding)
    | .ok place =>
        match recognize seen place.name place.key.start with
        | .error finding => .error (.fault finding)
        | .ok key =>
            match scanAssigned calendar rule key place with
            | .error failure => .error failure
            | .ok extended =>
                scanLater calendar text stop (place.name :: seen) extended place.next
  else .ok (position, rule)
termination_by stop - position
decreasing_by
  have behind := lt_of_placeAt _found _inside
  omega

def isLineBreak (c : Char) : Bool := c = '\r' || c = '\n'

/-- Where a sign stands between a position and an end, or that end where it does not.  A negative end counts
from the end of the text. -/
def endBefore (text : List Char) (sign : Char) (start : Nat) (stop : Int) : Int :=
  let reach := if stop < 0 then text.length + stop else stop
  match Stretch.find? sign ⟨text, start, reach.toNat⟩ with
  | none => stop
  | some position => position

/-- Where the line ends that begins at a position: at the first of its line breaks, or at the end that is
given, or at that of the text. -/
def lineEnd (text : List Char) (start : Nat) (stop : Option Int) : Int :=
  let given := match stop with
    | none => (text.length : Int)
    | some stop => min stop text.length
  endBefore text '\n' start (endBefore text '\r' start given)

def scanRule (calendar : Calendar) (text : List Char) (start : Nat) (stop : Option Int) :
    Except Stop (Nat × Rule) :=
  let stop := lineEnd text start stop
  let fault (finding : Finding) : Except Stop (Nat × Rule) := .error (.fault finding)
  if stop ≤ start then fault ⟨.empty, start, none, none⟩
  else
    match placeAt text start stop.toNat with
    | .error finding => fault finding
    | .ok first =>
        if first.name ≠ "FREQ" then fault ⟨.frequencyNotFirst, first.key.start, some first.name, none⟩
        else
          match readFrequency first.value.piece with
          | .error finding => fault finding
          | .ok frequency => scanLater calendar text stop.toNat ["FREQ"] { frequency } first.next

def Stop.about (stop : Stop) (subject : String) : ParseFailure :=
  match stop with
  | .fault finding =>
      .rule ⟨subject, finding.fault, some finding.position, finding.key, finding.fragment⟩
  | .outOfRange => .outOfRange
  | .outOfText => .outOfText

/-- Reads the rule that begins at a position of a larger text.  The answer holds the position at which
the rule ends. -/
def readPartial (calendar : Calendar) (text : String) (start : Nat) (stop : Option Int) :
    Except ParseFailure (Nat × Rule) :=
  (scanRule calendar text.toList start stop).mapError fun failure => failure.about text

def readText (calendar : Calendar) (limit : Int) (text : String) : Except ParseFailure Rule := do
  let checked ← RuleGuard.checkText text limit
  (readPartial calendar checked 0 none).map Prod.snd

/-- Reads a value, which must be a text.  `reach` bounds the steps in which another one is written. -/
def readValue (reach : Nat) (calendar : Calendar) (limit : Int) (value : Value) :
    Except ParseFailure Rule :=
  match value with
  | .text text => readText calendar limit text
  | other => .error (RuleGuard.notText reach other)

def read (calendar : Calendar) (text : String) : Except ParseFailure Rule :=
  readText calendar RuleGuard.defaultLimit text

def propertyName : String := "RRULE:"

def readLine (calendar : Calendar) (line : String) (start : Nat) :
    Except ParseFailure (Nat × Rule) :=
  if start ≤ line.toList.length ∧ propertyName.toList.isPrefixOf (line.toList.drop start) then
    readPartial calendar line (start + propertyName.length) none
  else .error (.rule ⟨line, .otherProperty, some start, none, none⟩)

end

end RuleText

end Recurrence
