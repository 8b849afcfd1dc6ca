import LeaseLock.Sql.Store
import LeaseLock.Store.Registry

namespace LeaseLock

inductive Backing
  | memory (registry : Registry)
  | sql (store : Sql.Store)
  deriving DecidableEq, Repr

namespace Backing

def apply (b : Backing) (now : Int) (newNonce : String) (call : Call) :
    CallResult Backing call.Answer :=
  match b with
  | .memory registry =>
    let result := registry.apply (Instant.ofClock? now) newNonce call
    ⟨result.outcome, .memory result.state, result.events⟩
  | .sql store =>
    let result := store.apply now newNonce call
    ⟨result.outcome, .sql result.state, result.events⟩

/-- Carries out a call at a reading of the store's own clock in nanoseconds since the epoch. The
clock of a database shows whole milliseconds only. -/
def applyAt (b : Backing) (reading : Int) (newNonce : String) (call : Call) :
    CallResult Backing call.Answer :=
  match b with
  | .memory registry =>
    let result := registry.apply (Instant.ofNanos? reading) newNonce call
    ⟨result.outcome, .memory result.state, result.events⟩
  | .sql store =>
    let result := store.applyAt (reading / nanosPerMilli) newNonce call
    ⟨result.outcome, .sql result.state, result.events⟩

end Backing

end LeaseLock
