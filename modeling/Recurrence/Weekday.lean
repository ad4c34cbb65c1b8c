namespace Recurrence

/-! The seven days of the week, their two-letter codes and their numbers from Monday. -/

inductive Weekday
  | monday
  | tuesday
  | wednesday
  | thursday
  | friday
  | saturday
  | sunday
deriving DecidableEq, Repr

namespace Weekday

def all : List Weekday :=
  [monday, tuesday, wednesday, thursday, friday, saturday, sunday]

/-- Monday is 0. -/
def index : Weekday → Nat
  | monday => 0
  | tuesday => 1
  | wednesday => 2
  | thursday => 3
  | friday => 4
  | saturday => 5
  | sunday => 6

/-- The day with a number, which counts on past the end of the week and back before its start. -/
def ofIndex (number : Int) : Weekday :=
  match (number % 7).toNat with
  | 0 => monday
  | 1 => tuesday
  | 2 => wednesday
  | 3 => thursday
  | 4 => friday
  | 5 => saturday
  | _ => sunday

def code : Weekday → String
  | monday => "MO"
  | tuesday => "TU"
  | wednesday => "WE"
  | thursday => "TH"
  | friday => "FR"
  | saturday => "SA"
  | sunday => "SU"

def ofCode? (text : String) : Option Weekday :=
  all.find? fun weekday => weekday.code == text

/-- The weekday of a day number: day 0 is a Monday. -/
def ofDay (day : Nat) : Weekday :=
  ofIndex day

/-- The number of days from the last `first` up to this day. -/
def daysSince (weekday first : Weekday) : Nat :=
  (weekday.index + 7 - first.index) % 7

theorem index_lt (weekday : Weekday) : weekday.index < 7 := by
  cases weekday <;> decide

theorem index_ofIndex (number : Int) : ((ofIndex number).index : Int) = number % 7 := by
  have lower := Int.emod_nonneg number (by decide : (7 : Int) ≠ 0)
  have upper := Int.emod_lt_of_pos number (by decide : (0 : Int) < 7)
  have cases : (number % 7).toNat = 0 ∨ (number % 7).toNat = 1 ∨ (number % 7).toNat = 2 ∨
      (number % 7).toNat = 3 ∨ (number % 7).toNat = 4 ∨ (number % 7).toNat = 5 ∨
      (number % 7).toNat = 6 := by omega
  unfold ofIndex
  rcases cases with found | found | found | found | found | found | found <;>
    simp only [found, index] <;> omega

theorem ofIndex_index (weekday : Weekday) : ofIndex weekday.index = weekday := by
  cases weekday <;> rfl

theorem index_ofDay (day : Nat) : (ofDay day).index = day % 7 := by
  have reading := index_ofIndex (day : Int)
  simp only [ofDay]
  omega

theorem ofCode?_code (weekday : Weekday) : ofCode? weekday.code = some weekday := by
  cases weekday <;> decide

end Weekday

end Recurrence
