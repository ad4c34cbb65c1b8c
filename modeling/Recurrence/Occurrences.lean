import Recurrence.Registry

namespace Recurrence

/-! The occurrences of a rule as a list that is bounded by a limit and, if wanted, by a last date. -/

def defaultLimit : Int := 366

/-- Reads a limit, which must be an integer and no truth value.  The error is the name of the type. -/
def Value.limit : Value → Except String Int
  | .int limit => .ok limit
  | value => .error value.typeName

def limitComplaint (typeName : String) : String := "limit must be an integer, got " ++ typeName

inductive ExpansionFailure
  | refused (error : GeneratorError)
  | broken (breakdown : Breakdown)
deriving DecidableEq, Repr

/-- A list of occurrences or an error, and what was logged on the way. -/
structure Expansion where
  result : Except ExpansionFailure (List Moment)
  log : List LogRecord

namespace Expansion

def localizeBound (calendar : Calendar) : Option DateTime → Option (Option Moment)
  | none => some none
  | some date => (calendar.localize date).map some

def summary (frequency : Frequency) (generator : String) (count : Nat) : LogRecord :=
  ⟨.debug, "Expanded " ++ frequency.name ++ " rule with " ++ generator ++ ": " ++
    Digits.text count ++ " occurrences"⟩

/-- The occurrences up to a bound.  Nothing is looked at when the limit is not positive. -/
def occurrences (registry : Registry) (rule : Rule) (start : DateTime) (bound : Option DateTime)
    (limit : Int) (calendar : Calendar) : Expansion :=
  if limit ≤ 0 then ⟨.ok [], []⟩
  else
    let search := registry.create rule start calendar
    let log := search.attempts.map Registry.Attempt.record
    match search.result with
    | .error (.refused error) => ⟨.error (.refused error), log⟩
    | .error .outOfRange => ⟨.error (.broken .range), log⟩
    | .ok (variant, generator) =>
        match localizeBound calendar bound with
        | none => ⟨.error (.broken .range), log⟩
        | some bound =>
            match (generator.take bound limit.toNat).1 with
            | .error breakdown => ⟨.error (.broken breakdown), log⟩
            | .ok dates =>
                ⟨.ok dates, log ++ [summary rule.frequency variant.name dates.length]⟩

def between (registry : Registry) (rule : Rule) (start finish : DateTime) (inclusive : Bool)
    (limit : Int) (calendar : Calendar) : Except ExpansionFailure (List Moment) := do
  let dates ← (occurrences registry rule start (some finish) limit calendar).result
  if inclusive then return dates
  else
    match calendar.localize finish with
    | none => throw (.broken .range)
    | some bound => return dates.filter fun date => date.isBefore bound

end Expansion

end Recurrence
