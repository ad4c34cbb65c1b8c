import Recurrence.Zone

namespace Recurrence.Zone

/-! Zones of Asia.

The changes of a history are listed from the latest to the earliest, in Unix seconds.  The phase of
the first one holds for all later times.
-/

namespace Tokyo

def localMean : Phase := ⟨33540, 0⟩

def standard : Phase := ⟨32400, 0⟩

def summer : Phase := ⟨36000, 3600⟩

def history : History where
  name := "Asia/Tokyo"
  initial := localMean
  shifts := [
    ⟨-577962000, standard⟩, ⟨-588848400, summer⟩, ⟨-609411600, standard⟩, ⟨-620298000, summer⟩,
    ⟨-640861200, standard⟩, ⟨-654771600, summer⟩, ⟨-672310800, standard⟩, ⟨-683802000, summer⟩,
    ⟨-2147483648, standard⟩]

end Tokyo

namespace Kolkata

def localMean : Phase := ⟨21180, 0⟩

def madras : Phase := ⟨19260, 0⟩

def standard : Phase := ⟨19800, 0⟩

def summer : Phase := ⟨23400, 3600⟩

def history : History where
  name := "Asia/Kolkata"
  initial := localMean
  shifts := [
    ⟨-764145000, standard⟩, ⟨-862637400, summer⟩, ⟨-872058600, standard⟩, ⟨-891581400, summer⟩,
    ⟨-2019705670, standard⟩, ⟨-2147483648, madras⟩]

end Kolkata

namespace Kathmandu

def localMean : Phase := ⟨20460, 0⟩

def untilNewYear1986 : Phase := ⟨19800, 0⟩

def standard : Phase := ⟨20700, 0⟩

def history : History where
  name := "Asia/Kathmandu"
  initial := localMean
  shifts := [
    ⟨504901800, standard⟩, ⟨-1577943676, untilNewYear1986⟩]

end Kathmandu

end Recurrence.Zone
