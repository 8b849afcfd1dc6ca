import LeaseLock.Number.Digits
import LeaseLock.Store.Call

namespace LeaseLock.Rehearsal

inductive Act
  | pass
  /-- The call reaches the store after a delay. -/
  | delay (ms : Nat)
  /-- The call reaches the store at once and its answer comes after a delay. -/
  | delayAfter (ms : Nat)
  | error (message : String)
  | closed
  | contended
  | granted (untilMillis : Int)
  | removed (count : Nat)
  | refused
  | probed (use : PoolUse)
  deriving DecidableEq, Repr

def Act.answer? (act : Act) (call : Call) : Option (Outcome call.Answer) :=
  match act, call with
  | .error message, _ => some (.failed (.backend (.described message)))
  | .closed, _ => some (.failed .closed)
  | .contended, .acquire _ => some (.ok .contended)
  | .granted ms, .acquire _ => some ((Outcome.ofOption (Instant.ofMillis? ms)).map .granted)
  | .removed count, .release _ _ _ => some (.ok count)
  | .refused, .renew _ _ _ _ => some (.ok none)
  | .probed use, .probe => some (.ok use)
  | _, _ => none

end LeaseLock.Rehearsal
