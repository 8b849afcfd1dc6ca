import LeaseLock.Number.Binary64
import LeaseLock.Time.Span

/-!
The clock of the embedded database. It reads whole milliseconds, counts them as a Julian day in
double precision and converts back, which often loses one millisecond.
-/

namespace LeaseLock.Sql

/-- Milliseconds from the start of the Julian day count to 1970-01-01. -/
def julianEpochMillis : Int := 210866760000000

def millisPerDay : Binary64 := Binary64.ofNat 86400000

def julianEpoch : Binary64 := Binary64.ofRatio false 24405875 10

def ofInt (n : Int) : Binary64 := Binary64.ofRatio (n < 0) n.natAbs 1

def databaseMillis (now : Int) : Int :=
  let julian := ofInt (now / nanosPerMilli + julianEpochMillis) / millisPerDay
  ((julian - julianEpoch) * millisPerDay).truncate

end LeaseLock.Sql
