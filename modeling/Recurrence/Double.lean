import Recurrence.Digits

namespace Recurrence

/-! Numbers with a fraction, kept to 53 binary digits.

A finite number is a coefficient times a power of two.  `Double.nearest` gives the number nearest to a
quotient, and of two that are equally near the one with the even coefficient; in this way every
decimal has one number that stands for it.  `Double.literal` writes the fewest decimal digits for
which the number stands.
-/

inductive Double
  | finite (negative : Bool) (coefficient : Nat) (exponent : Int)
  | infinite (negative : Bool)
  | undefined
deriving DecidableEq, Repr

namespace Double

def leastExponent : Int := -1074

def greatestExponent : Int := 971

def unscaled (base numerator denominator : Nat) (exponent : Int) : Nat × Nat :=
  (numerator * Nat.pow base (-exponent).toNat, denominator * Nat.pow base exponent.toNat)

/-- The whole number nearest to a quotient, and of two that are equally near the even one. -/
def roundedQuotient (numerator denominator : Nat) : Nat :=
  let whole := numerator / denominator
  let rest := 2 * (numerator % denominator)
  if denominator < rest ∨ (rest = denominator ∧ whole % 2 = 1) then whole + 1 else whole

/-- The exponent at which the coefficient of a quotient has 53 binary digits, or the least one. -/
def fittingExponent (numerator denominator : Nat) : Int :=
  let magnitude : Int := (Nat.log2 numerator : Int) - Nat.log2 denominator
  let left := unscaled 2 numerator denominator magnitude
  max leastExponent ((if left.1 < left.2 then magnitude - 1 else magnitude) - 52)

/-- The number with a coefficient of at most 53 binary digits, or of one more when it is even. -/
def settled (negative : Bool) (coefficient : Nat) (exponent : Int) : Double :=
  if coefficient = 0 then finite negative 0 0
  else
    let carried := Nat.pow 2 53 ≤ coefficient
    let exponent := if carried then exponent + 1 else exponent
    if greatestExponent < exponent then infinite negative
    else finite negative (if carried then coefficient / 2 else coefficient) exponent

/-- The number nearest to a quotient; it is infinite when the quotient is too great. -/
def nearest (negative : Bool) (numerator denominator : Nat) : Double :=
  if numerator = 0 then finite negative 0 0
  else
    let exponent := fittingExponent numerator denominator
    let left := unscaled 2 numerator denominator exponent
    settled negative (roundedQuotient left.1 left.2) exponent

def ofDecimal (negative : Bool) (coefficient : Nat) (exponent : Int) : Double :=
  let magnitude : Int := (Digits.ofNat coefficient).length + exponent
  if coefficient = 0 ∨ magnitude < -330 then finite negative 0 0
  else if 310 < magnitude then infinite negative
  else
    let quotient := unscaled 10 coefficient 1 (-exponent)
    nearest negative quotient.1 quotient.2

def ofInt (value : Int) : Double := nearest (value < 0) value.natAbs 1

def quotient? : Double → Option (Int × Nat)
  | finite negative coefficient exponent =>
      let size := unscaled 2 coefficient 1 (-exponent)
      some (if negative then -(size.1 : Int) else size.1, size.2)
  | _ => none

def integer? (number : Double) : Option Int :=
  match number.quotient? with
  | some (numerator, denominator) =>
      if Int.fmod numerator denominator = 0 then some (Int.fdiv numerator denominator) else none
  | none => none

def isZero : Double → Bool
  | finite _ coefficient _ => coefficient = 0
  | _ => false

def reaches (value : Int) : Bool :=
  match ofInt value with
  | finite _ _ _ => true
  | _ => false

/-! ### Decimal digits -/

/-- The place of the point of a positive quotient: how many digits stand before it, or, with a minus,
how many zeros stand behind it. -/
def pointPosition (numerator denominator : Nat) : Int :=
  if denominator ≤ numerator then (Digits.ofNat (numerator / denominator)).length
  else 1 - ((Digits.ofNat (denominator / numerator)).length : Int)

/-- A multiple of a power of ten next to a positive number that stands for it, if there is one.  The
nearer of the two neighbours comes first. -/
def neighbour? (number : Double) (numerator denominator : Nat) (exponent : Int) :
    Option (Nat × Int) :=
  let left := unscaled 10 numerator denominator exponent
  let lower := left.1 / left.2
  let neighbours :=
    if roundedQuotient left.1 left.2 = lower then [lower, lower + 1] else [lower + 1, lower]
  (neighbours.find? fun coefficient => ofDecimal false coefficient exponent = number).map
    fun coefficient => (coefficient, exponent)

/-- The decimal with the fewest digits for which a positive number stands.  Seventeen digits are
always enough. -/
def shortest (coefficient : Nat) (exponent : Int) : Nat × Int :=
  let size := unscaled 2 coefficient 1 (-exponent)
  let point := pointPosition size.1 size.2
  ((List.range 17).findSome? fun count =>
    neighbour? (finite false coefficient exponent) size.1 size.2 (point - (count + 1 : Nat))).getD
      (coefficient, 0)

def stripZeros : Nat → Nat → Int → Nat × Int
  | 0, coefficient, exponent => (coefficient, exponent)
  | steps + 1, coefficient, exponent =>
      if coefficient ≠ 0 ∧ coefficient % 10 = 0 then
        stripZeros steps (coefficient / 10) (exponent + 1)
      else (coefficient, exponent)

def exponentText (exponent : Int) : List Char :=
  'e' :: (if exponent < 0 then '-' else '+') :: Digits.padded exponent.natAbs 2

/-- Writes digits with a point.  It stands inside or beside the digits when the number lies between a
ten-thousandth and ten to the sixteenth, and after the first digit otherwise. -/
def layOut (digits : List Char) (point : Int) : List Char :=
  if -4 < point ∧ point ≤ 0 then '0' :: '.' :: List.replicate (-point).toNat '0' ++ digits
  else if 0 < point ∧ point ≤ 16 then
    let whole := digits.take point.toNat
    let fraction := digits.drop point.toNat
    whole ++ List.replicate (point.toNat - whole.length) '0' ++
      '.' :: (if fraction.isEmpty then ['0'] else fraction)
  else
    match digits with
    | [] => []
    | [digit] => digit :: exponentText (point - 1)
    | digit :: others => digit :: '.' :: others ++ exponentText (point - 1)

def sizeText (coefficient : Nat) (exponent : Int) : List Char :=
  if coefficient = 0 then ['0', '.', '0']
  else
    let short := shortest coefficient exponent
    let bare := stripZeros (Digits.ofNat short.1).length short.1 short.2
    let digits := Digits.ofNat bare.1
    layOut digits (digits.length + bare.2)

def literal : Double → String
  | finite negative coefficient exponent =>
      String.ofList ((if negative then ['-'] else []) ++ sizeText coefficient exponent)
  | infinite negative => if negative then "-inf" else "inf"
  | undefined => "nan"

end Double

end Recurrence
