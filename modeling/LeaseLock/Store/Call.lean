import LeaseLock.Lock.Event
import LeaseLock.Lock.Health
import LeaseLock.Lock.Lease

namespace LeaseLock

structure Claim where
  key : String
  leaseId : String
  nonce : String
  ttl : Span
  metadata : String
  deriving DecidableEq, Repr

inductive Grant
  | granted (validUntil : Instant)
  | contended
  deriving DecidableEq, Repr

namespace Grant

def validUntil? : Grant → Option Instant
  | .granted t => some t
  | .contended => none

def isGranted (g : Grant) : Bool := g.validUntil?.isSome

end Grant

structure Renewal where
  validUntil : Instant
  nonce : String
  deriving DecidableEq, Repr

structure Holding where
  held : Bool
  remaining : Span
  deriving DecidableEq, Repr

def Holding.free : Holding := ⟨false, .zero⟩

inductive Call
  | acquire (claim : Claim)
  | release (key leaseId nonce : String)
  | renew (key leaseId nonce : String) (ttl : Span)
  | isHeld (key : String)
  | probe
  | close
  deriving DecidableEq, Repr

/-- What a call answers: a release the number of leases removed, a renewal nothing if it is
refused. -/
@[reducible] def Call.Answer : Call → Type
  | .acquire _ => Grant
  | .release _ _ _ => Nat
  | .renew _ _ _ _ => Option Renewal
  | .isHeld _ => Holding
  | .probe => PoolUse
  | .close => Unit

structure CallResult (σ α : Type) where
  outcome : Outcome α
  state : σ
  events : List Event := []

end LeaseLock
