import Recurrence.Rule

namespace Recurrence

/-! What is read where it stands, between two positions of a text.

A stretch is a text with two positions, and nothing is cut out of the text before it has been recognized.
A stretch may go on behind the end of its text.  A number is read digit by digit (`scanNat`, `scanInt`), so
reading it there asks for characters that do not exist, unless an earlier character ends it; then there is
no answer.
-/

structure Stretch where
  text : List Char
  start : Nat
  stop : Nat

namespace Stretch

def chars (stretch : Stretch) : List Char := (stretch.text.take stretch.stop).drop stretch.start

def isWithin (stretch : Stretch) : Bool := stretch.stop ≤ stretch.text.length

/-- The position of the first sign of its kind in a stretch. -/
def find? (sign : Char) (stretch : Stretch) : Option Nat :=
  (stretch.chars.findIdx? fun c => c == sign).map fun index => stretch.start + index

def startsWith (stretch : Stretch) (opening : String) : Bool :=
  opening.toList.isPrefixOf stretch.chars

/-- Goes on to read digits at a position, so many of them, when those before it make `value`.  There is no
answer when the text ends before them. -/
def scanFrom (text : List Char) : Nat → Nat → Nat → Option (Option Nat)
  | 0, _, value => some (some value)
  | left + 1, position, value =>
      match text[position]? with
      | none => none
      | some c =>
          if Digits.isDigit c then
            scanFrom text left (position + 1) (value * 10 + Digits.digitValue c)
          else some none

def scanNat (stretch : Stretch) : Option (Option Nat) :=
  if stretch.stop ≤ stretch.start then some none
  else scanFrom stretch.text (stretch.stop - stretch.start) stretch.start 0

/-- Reads digits with or without a minus in front of them. -/
def scanInt (stretch : Stretch) : Option (Option Int) :=
  let unsigned := stretch.scanNat.map (Option.map fun (n : Nat) => (n : Int))
  if stretch.start < stretch.stop then
    match stretch.text[stretch.start]? with
    | none => none
    | some '-' =>
        { stretch with start := stretch.start + 1 }.scanNat.map (Option.map fun (n : Nat) => -(n : Int))
    | some _ => unsigned
  else unsigned

def scanBounded (domain : Domain) (stretch : Stretch) : Option (Option Int) :=
  stretch.scanInt.map (Option.filter domain.has)

/-- Reads an ordinal, with or without a sign in front of it. -/
def scanOrdinal (stretch : Stretch) : Option (Option Int) :=
  match stretch.text[stretch.start]? with
  | none => none
  | some c =>
      let number :=
        if c = '+' then
          { stretch with start := stretch.start + 1 }.scanNat.map (Option.map fun (n : Nat) => (n : Int))
        else stretch.scanInt
      number.map (Option.filter Domain.ordinals.has)

/-- Reads a weekday, with an ordinal before its code or without. -/
def scanDay (stretch : Stretch) : Option (Option DayEntry) :=
  if stretch.stop < stretch.start + 2 then some none
  else
    match Weekday.ofCode? (String.ofList { stretch with start := stretch.stop - 2 }.chars) with
    | none => some none
    | some weekday =>
        let ordinal : Stretch := { stretch with stop := stretch.stop - 2 }
        if ordinal.stop = ordinal.start then some (some (.every weekday))
        else ordinal.scanOrdinal.map (Option.map fun number => ⟨some number, weekday⟩)

theorem lt_of_find? {sign : Char} {stretch : Stretch} {position : Nat}
    (found : stretch.find? sign = some position) :
    stretch.start ≤ position ∧ position < stretch.stop := by
  simp only [find?, Option.map_eq_some_iff] at found
  obtain ⟨index, isIndex, rfl⟩ := found
  have inside := (List.findIdx?_eq_some_iff_getElem.mp isIndex).1
  have bound : stretch.chars.length ≤ stretch.stop - stretch.start := by
    simp only [chars, List.length_drop, List.length_take]
    omega
  omega

end Stretch

end Recurrence
