import Recurrence.Moment

namespace Recurrence.Zone

/-! The zones that are known by name.

Where zones are kept is no affair of this library: a `Zone.Directory` finds them, and the little that is
relied on of it are its laws.  A zone that is found looks times up itself and is found under its own name,
and a name under which there is a zone has only characters that can stand in a rule text.
-/

/-- Printable ASCII, without the two signs that end a name in a rule text. -/
def isNameChar (c : Char) : Bool :=
  decide (32 ≤ c.toNat) && decide (c.toNat < 127) && c != ';' && c != ':'

/-- Whether a zone can be asked what a wall-clock time means there. -/
def hasReader : Zone → Bool
  | .steady _ _ => true
  | .varying _ .reader => true
  | _ => false

class Directory where
  find? : String → Option Zone
  find?_utc : find? "UTC" = some .utc
  isNameChar_of_find? {name : String} {zone : Zone} (found : find? name = some zone) :
    ∀ c ∈ name.toList, isNameChar c = true
  hasReader_of_find? {name : String} {zone : Zone} (found : find? name = some zone) :
    zone.hasReader = true
  exists_name_of_find? {name : String} {zone : Zone} (found : find? name = some zone) :
    ∃ known, zone.name? = some known ∧ known ≠ "" ∧ find? known = some zone

variable [Directory]

/-- The zone with a name, if there is one. -/
def resolve? (name : String) : Option Zone :=
  if name.isEmpty then none else Directory.find? name

def unknownComplaint (name : String) : String := "Unknown timezone '" ++ name ++ "'"

/-- Whether a zone shows a wall-clock time exactly once, so that the time alone tells the instant.  A
zone without a reader is judged by the zone that its key names; it shows every time once when it has no
key, and none when there is no such zone.  None when an instant involved lies outside the calendar. -/
def showsOnce (zone : Zone) (time : WallTime) : Option Bool :=
  match zone with
  | .steady _ _ => some true
  | .varying history .reader => judge history
  | .varying _ (.plain key _) => judgeNamed key
  | .fixed _ key _ => judgeNamed key
where
  judge (history : History) : Option Bool :=
    (history.read time).map fun
      | .once _ => true
      | _ => false
  judgeNamed : Option String → Option Bool
    | none => some true
    | some key =>
        match resolve? key with
        | none => some false
        | some (.varying history _) => judge history
        | some _ => some true

end Recurrence.Zone
