namespace Recurrence

/-! The months by name. -/

def monthNames : List String :=
  ["JANUARY", "FEBRUARY", "MARCH", "APRIL", "MAY", "JUNE", "JULY", "AUGUST", "SEPTEMBER",
    "OCTOBER", "NOVEMBER", "DECEMBER"]

def monthName? : Int → Option String
  | .ofNat (index + 1) => monthNames[index]?
  | _ => none

end Recurrence
