import Recurrence.Double
import Recurrence.Moment

namespace Recurrence

/-! Data as callers and documents give it, before anyone knows what it should be.

A `Value` keeps what a document says: whether a number is written as an integer or with a fraction,
and in which order an object names its entries.  `Value.written` writes a value so that its type can
be seen, `Value.display` writes a text as it is.
-/

inductive Value
  | null
  | bool (value : Bool)
  | int (value : Int)
  | double (value : Double)
  | text (value : String)
  | list (items : List Value)
  | object (entries : List (String × Value))
  | date (value : DateTime)
deriving Repr

namespace Value

def typeName : Value → String
  | null => "NoneType"
  | bool _ => "bool"
  | int _ => "int"
  | double _ => "float"
  | text _ => "str"
  | list _ => "list"
  | object _ => "dict"
  | date _ => "datetime"

def entry? (value : Value) (key : String) : Option Value :=
  match value with
  | object entries => entries.lookup key
  | _ => none

/-- Sets an entry: in its old place if the key is there, else at the end. -/
def setEntry (entries : List (String × Value)) (key : String) (value : Value) :
    List (String × Value) :=
  if entries.any fun entry => entry.1 == key then
    entries.map fun entry => if entry.1 == key then (key, value) else entry
  else entries ++ [(key, value)]

end Value

end Recurrence
