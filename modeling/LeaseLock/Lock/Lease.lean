import LeaseLock.Lock.Limits
import LeaseLock.Time.Instant

namespace LeaseLock

/-- What a holder presents to renew or release its lock. The nonce changes with every grant and
renewal. -/
structure Token where
  key : String
  leaseId : String
  validUntil : Instant
  nonce : String
  deriving DecidableEq, Repr

def Token.remainingAt (t : Token) (now : Instant) : Span := t.validUntil.since now

structure Lease where
  key : String
  leaseId : String
  nonce : String
  validUntil : Instant
  ttl : Span
  metadata : String
  createdAt : Instant
  updatedAt : Instant
  deriving DecidableEq, Repr

namespace Lease

def isExpiredAt (l : Lease) (now : Instant) : Bool := l.validUntil ≤ now

def remainingAt (l : Lease) (now : Instant) : Span := l.validUntil.since now

def maxShiftMillis : Nat := UInt64.size / 2 - 1

def shift? (s : Span) : Option Span :=
  if s.nanos ≤ maxShiftMillis * nanosPerMilli then some s else none

/-- The last instant before which the lease can be renewed. A margin too long to be taken from an
instant counts as zero. -/
def renewableUntil? (l : Lease) : Option Instant := do
  let margin ← safetyMargin? l.ttl
  l.validUntil.sub? ((shift? margin).getD .zero)

def isRenewableAt? (l : Lease) (now : Instant) : Option Bool :=
  l.renewableUntil?.map fun limit => now < limit

def isOwnedBy (l : Lease) (leaseId nonce : String) : Bool := l.leaseId == leaseId && l.nonce == nonce

end Lease

end LeaseLock
