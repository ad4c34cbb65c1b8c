import Recurrence.Log

namespace Recurrence

/-! Running an operation so that it always gives a value: what goes wrong is logged, and a default
stands in. -/

/-- What can go wrong: an error of this library, or one of another kind with its text. -/
inductive Trouble
  | report (report : Report)
  | foreign (kind text : String)

def Trouble.text : Trouble → String
  | report found => found.fullText
  | foreign kind words => kind ++ ": " ++ words

/-- What is logged about trouble.  The operation's name stands in for a missing or empty message. -/
def Trouble.record (trouble : Trouble) (operation : String) (message : Option String) : LogRecord :=
  let shown := match message with
    | some text => if text.isEmpty then operation else text
    | none => operation
  ⟨.error, shown ++ ": " ++ trouble.text⟩

def rescue (operation : String) (message : Option String) (default : α)
    (result : Except Trouble α) : α × List LogRecord :=
  match result with
  | .ok value => (value, [])
  | .error trouble => (default, [trouble.record operation message])

end Recurrence
