import LeaseLock.Number.Digits
import LeaseLock.Store.Call
import LeaseLock.Store.Keyed

/-!
A store of leases in memory. A call reads the clock only where its answer depends on the time; a
reading of a clock that shows no instant is an overflow.
-/

namespace LeaseLock

structure RegistryCounts where
  acquisitions : UInt64 := 0
  takeovers : UInt64 := 0
  contended : UInt64 := 0
  releases : UInt64 := 0
  renewals : UInt64 := 0
  deriving DecidableEq, Repr

structure Registry where
  leases : Keyed Lease
  counts : RegistryCounts
  closed : Bool
  deriving DecidableEq, Repr

namespace Registry

def new : Registry := ⟨.empty, {}, false⟩

instance : Inhabited Registry := ⟨new⟩

def shift (span : Span) : Outcome Span :=
  match Lease.shift? span with
  | none => .failed (.backend
      (.described "Source duration value is out of range for the target type"))
  | some span => .ok span

def expiry (now : Instant) (ttl : Span) : Outcome Instant := do
  let padded ← Outcome.ofOption (ttl.add? grantPadding)
  let span ← shift padded
  Outcome.ofOption (now.add? span)

def attempt (r : Registry) (x : Outcome α) (next : α → Outcome β × Registry) :
    Outcome β × Registry :=
  match x with
  | .ok a => next a
  | .failed fault => (.failed fault, r)
  | .overflow => (.overflow, r)

@[simp] theorem attempt_ok (r : Registry) (a : α) (next : α → Outcome β × Registry) :
    r.attempt (.ok a) next = next a := rfl

@[simp] theorem attempt_failed (r : Registry) (fault : Fault) (next : α → Outcome β × Registry) :
    r.attempt (.failed fault) next = (.failed fault, r) := rfl

@[simp] theorem attempt_overflow (r : Registry) (next : α → Outcome β × Registry) :
    r.attempt .overflow next = (.overflow, r) := rfl

def acquireAt (r : Registry) (now : Instant) (claim : Claim) : Outcome Grant × Registry :=
  r.attempt (expiry now claim.ttl) fun validUntil =>
    let lease : Lease := ⟨claim.key, claim.leaseId, claim.nonce, validUntil, claim.ttl,
      claim.metadata, now, now⟩
    let granted (counts : RegistryCounts) : Outcome Grant × Registry :=
      (.ok (.granted validUntil), { r with
        leases := r.leases.insert claim.key lease
        counts := { counts with acquisitions := counts.acquisitions + 1 } })
    match r.leases.find? claim.key with
    | none => granted r.counts
    | some old =>
      if old.isExpiredAt now then
        granted { r.counts with takeovers := r.counts.takeovers + 1 }
      else
        (.ok .contended, { r with
          counts := { r.counts with contended := r.counts.contended + 1 } })

def acquire (r : Registry) (clock : Option Instant) (claim : Claim) : Outcome Grant × Registry :=
  if r.closed then (.failed .closed, r)
  else
    match clock with
    | none => (.overflow, r)
    | some now => r.acquireAt now claim

/-- Expiry plays no part in a release. -/
def release (r : Registry) (key leaseId nonce : String) : Outcome Nat × Registry :=
  if r.closed then (.failed .closed, r)
  else
    match r.leases.find? key with
    | none => (.ok 0, r)
    | some lease =>
      if lease.isOwnedBy leaseId nonce then
        (.ok 1, { r with
          leases := r.leases.erase key
          counts := { r.counts with releases := r.counts.releases + 1 } })
      else (.ok 0, r)

/-- Renews a lease unless it has another owner or is about to end. The end of a lease never moves
back. -/
def renewAt (r : Registry) (now : Instant) (lease : Lease) (key leaseId nonce : String)
    (ttl : Span) (newNonce : String) : Outcome (Option Renewal) × Registry :=
  if !lease.isOwnedBy leaseId nonce then (.ok none, r)
  else
    match lease.isRenewableAt? now with
    | none => (.overflow, r)
    | some false => (.ok none, r)
    | some true =>
      r.attempt (expiry now ttl) fun granted =>
        let validUntil := max granted lease.validUntil
        (.ok (some ⟨validUntil, newNonce⟩), { r with
          leases := r.leases.insert key { lease with
            validUntil := validUntil
            ttl := ttl
            nonce := newNonce
            updatedAt := now }
          counts := { r.counts with renewals := r.counts.renewals + 1 } })

def renew (r : Registry) (clock : Option Instant) (key leaseId nonce : String) (ttl : Span)
    (newNonce : String) : Outcome (Option Renewal) × Registry :=
  if r.closed then (.failed .closed, r)
  else
    match r.leases.find? key, clock with
    | none, _ => (.ok none, r)
    | some _, none => (.overflow, r)
    | some lease, some now => r.renewAt now lease key leaseId nonce ttl newNonce

def isHeld (r : Registry) (clock : Option Instant) (key : String) : Outcome Holding :=
  if r.closed then .failed .closed
  else
    match clock, r.leases.find? key with
    | none, _ => .overflow
    | some _, none => .ok .free
    | some now, some lease =>
      if lease.isExpiredAt now then .ok .free else .ok ⟨true, lease.remainingAt now⟩

def probe (r : Registry) : Outcome PoolUse :=
  if r.closed then .failed .closed else .ok .none

def close (r : Registry) : Registry :=
  if r.closed then r else { r with leases := .empty, closed := true }

def purge (r : Registry) (now : Instant) : Nat × Registry :=
  let kept := r.leases.filter fun lease => !lease.isExpiredAt now
  (r.leases.size - kept.size, { r with leases := kept })

def closeEvents (r : Registry) : List Event :=
  if r.closed then [] else [⟨.debug, "Memory lease store closed", []⟩]

def purgeEvents (purged : Nat) : List Event :=
  if purged = 0 then []
  else [⟨.debug, "Purged expired lease records", [("count", decimalText purged)]⟩]

def apply (r : Registry) (clock : Option Instant) (newNonce : String) :
    (call : Call) → CallResult Registry call.Answer
  | .acquire claim => let (outcome, r) := r.acquire clock claim; ⟨outcome, r, []⟩
  | .release key leaseId nonce => let (outcome, r) := r.release key leaseId nonce; ⟨outcome, r, []⟩
  | .renew key leaseId nonce ttl =>
    let (outcome, r) := r.renew clock key leaseId nonce ttl newNonce; ⟨outcome, r, []⟩
  | .isHeld key => ⟨r.isHeld clock key, r, []⟩
  | .probe => ⟨r.probe, r, []⟩
  | .close => ⟨.ok (), r.close, r.closeEvents⟩

end Registry

end LeaseLock
