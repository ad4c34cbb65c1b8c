import Recurrence.Generator
import Recurrence.Log

namespace Recurrence

/-! Which generators are tried for a rule.

A registry lists variants of generators for every frequency.  The first variant that honors all parts
of a rule and accepts it generates the rule; `Registry.attempts` tells how far the search went.
-/

/-- A kind of generator: its name, the parts of rules that it honors, and how it is built.  `mark` tells
apart variants of one name that were declared apart. -/
structure Variant where
  name : String
  honored : List Part
  build : Rule → DateTime → Calendar → Except BuildFailure Generator
  mark : Nat := 0

namespace Variant

/-- Whether two variants were declared as one. -/
def same (first second : Variant) : Bool :=
  first.name == second.name && first.mark == second.mark

def ignored (variant : Variant) (rule : Rule) : List Part :=
  rule.restrictions.filter fun part => !variant.honored.contains part

def weekly : Variant where
  name := WeeklyWalk.name
  honored := [.weekday]
  build rule start calendar := (WeeklyWalk.build rule start calendar).map .weekly

def expanding : Variant where
  name := Expander.name
  honored := Part.all
  build rule start calendar := (Expander.build rule start calendar).map .expanding

end Variant

structure Registry where
  entries : List (Frequency × List Variant)

namespace Registry

/-- Weekly rules are walked day by day if possible; all others are expanded. -/
def initial : Registry where
  entries := Frequency.all.map fun frequency =>
    (frequency, if frequency = .weekly then [.weekly, .expanding] else [.expanding])

def variants (registry : Registry) (frequency : Frequency) : List Variant :=
  (registry.entries.lookup frequency).getD []

def set (registry : Registry) (frequency : Frequency) (variants : List Variant) : Registry where
  entries := (frequency, variants) :: registry.entries.filter fun entry => entry.1 != frequency

def remove (registry : Registry) (frequency : Frequency) : Registry where
  entries := registry.entries.filter fun entry => entry.1 != frequency

/-- Puts a variant before or behind the others of a frequency, from where it was. -/
def register (registry : Registry) (frequency : Frequency) (variant : Variant)
    (preferred : Bool) : Registry :=
  let others := (registry.variants frequency).filter fun other => !other.same variant
  registry.set frequency (if preferred then variant :: others else others ++ [variant])

inductive Attempt
  | skipped (variant : String) (ignored : List Part)
  | refused (error : GeneratorError)
deriving DecidableEq, Repr

def Attempt.record : Attempt → LogRecord
  | skipped variant ignored =>
      ⟨.debug, "Skipping " ++ variant ++ ": it ignores " ++
        ", ".intercalate (ignored.map Part.field)⟩
  | refused error => ⟨.debug, error.report.fullText⟩

/-- A search for a generator: the variants that were not used, and what was found. -/
structure Search where
  attempts : List Attempt
  result : Except BuildFailure (Variant × Generator)

def noneAccepts (frequency : Frequency) : GeneratorError where
  generator := "create_generator"
  frequency := frequency
  reason := some "no registered generator accepts the rule"

/-- Tries variants in order.  `error` is what a search that finds nothing ends with. -/
def search (rule : Rule) (start : DateTime) (calendar : Calendar) (error : GeneratorError) :
    List Variant → Search
  | [] => ⟨[], .error (.refused error)⟩
  | variant :: rest =>
      let ignored := variant.ignored rule
      if ignored.isEmpty then
        match variant.build rule start calendar with
        | .ok generator => ⟨[], .ok (variant, generator)⟩
        | .error .outOfRange => ⟨[], .error .outOfRange⟩
        | .error (.refused error) =>
            let later := search rule start calendar error rest
            ⟨.refused error :: later.attempts, later.result⟩
      else
        let later := search rule start calendar error rest
        ⟨.skipped variant.name ignored :: later.attempts, later.result⟩

def create (registry : Registry) (rule : Rule) (start : DateTime) (calendar : Calendar) : Search :=
  search rule start calendar (noneAccepts rule.frequency) (registry.variants rule.frequency)

end Registry

end Recurrence
