import LeaseLock.Sql.Quantity
import LeaseLock.Store.Call
import LeaseLock.Store.Keyed

/-!
The rows of the lease table and the effect of each statement on them. All times are whole
milliseconds of the database's clock, which a statement reads once. Ends of leases are exact here;
the database keeps one beyond 64 bits as an approximation, which no longer reads as an integer.
-/

namespace LeaseLock.Sql

structure Row where
  leaseId : String
  nonce : String
  validUntil : Int
  ttlMillis : Int
  metadata : String
  createdAt : Int
  updatedAt : Int
  deriving DecidableEq, Repr

def Row.isReadable (r : Row) : Bool := isWord r.validUntil && isWord r.ttlMillis

abbrev LeaseTable := Keyed Row

namespace LeaseTable

/-- The moment before which a row can be renewed: its margin before its end. -/
def renewableUntil (r : Row) : Quantity :=
  .ofInt r.validUntil - .ofInt r.ttlMillis * .ofInt marginPercent / .ofInt 100

/-- Writes a row unless an unexpired one is there; answers the new end of the lease. -/
def acquire (t : LeaseTable) (now : Int) (claim : Claim) (span ttl : Int) :
    Option Int × LeaseTable :=
  let row : Row := ⟨claim.leaseId, claim.nonce, now + span, ttl, claim.metadata, now, now⟩
  match t.find? claim.key with
  | none => (some row.validUntil, t.insert claim.key row)
  | some old =>
    if old.validUntil ≤ now then (some row.validUntil, t.insert claim.key row) else (none, t)

def release (t : LeaseTable) (key leaseId nonce : String) : Nat × LeaseTable :=
  match t.find? key with
  | none => (0, t)
  | some row =>
    if row.leaseId = leaseId ∧ row.nonce = nonce then (1, t.erase key) else (0, t)

def renew (t : LeaseTable) (now : Int) (key leaseId nonce : String) (span ttl : Int)
    (newNonce : String) : Option Int × LeaseTable :=
  match t.find? key with
  | none => (none, t)
  | some row =>
    if row.leaseId = leaseId ∧ row.nonce = nonce ∧ (renewableUntil row).exceeds now then
      let validUntil := max row.validUntil (now + span)
      (some validUntil, t.insert key { row with
        validUntil := validUntil
        ttlMillis := ttl
        nonce := newNonce
        updatedAt := now })
    else (none, t)

def validUntil? (t : LeaseTable) (key : String) : Option Int := (t.find? key).map Row.validUntil

def update (t : LeaseTable) (key : String) (change : Row → Row) : Nat × LeaseTable :=
  match t.find? key with
  | none => (0, t)
  | some row => (1, t.insert key (change row))

end LeaseTable

end LeaseLock.Sql
