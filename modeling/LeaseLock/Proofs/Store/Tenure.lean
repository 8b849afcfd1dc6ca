import LeaseLock.Proofs.Time.Ordinary
import LeaseLock.Proofs.Time.Span
import LeaseLock.Sql.LeaseTable

/-!
A lease as both kinds of stores keep it, and what one call can make of the lease of one key. Times
are nanoseconds since the epoch, times to live whole milliseconds. A clock counts in steps of
`grain` nanoseconds.
-/

namespace LeaseLock

theorem nanos_grantPadding : grantPadding.nanos = 10000000 := rfl

theorem nanos_maxTtl : maxTtl.nanos = 600000000000 := rfl

theorem millis_maxTtl : maxTtl.millis = 600000 := rfl

structure Tenure where
  leaseId : String
  nonce : String
  validUntil : Int
  ttl : Int
  metadata : String
  createdAt : Int
  updatedAt : Int
  deriving DecidableEq, Repr

def floorTo (grain n : Int) : Int := n / grain * grain

theorem floorTo_mono {grain m n : Int} (hgrain : 0 < grain) (h : m ≤ n) :
    floorTo grain m ≤ floorTo grain n :=
  Int.mul_le_mul_of_nonneg_right (Int.ediv_le_ediv hgrain h) (Int.le_of_lt hgrain)

namespace Tenure

def IsOwnedBy (t : Tenure) (leaseId nonce : String) : Prop := t.leaseId = leaseId ∧ t.nonce = nonce

def margin (t : Tenure) : Int := t.ttl * marginPercent / 100 * nanosPerMilli

theorem margin_nonneg {t : Tenure} (h : 0 ≤ t.ttl) : 0 ≤ t.margin := by
  simp only [margin, marginPercent, nanosPerMilli]
  omega

/-- Whether the lease can come from terms within their limits: only then is its margin exact. -/
def IsRegular (t : Tenure) : Prop :=
  0 ≤ t.ttl ∧ t.ttl ≤ maxTtl.millis ∧
    Instant.earliest.nanos ≤ t.validUntil ∧ t.validUntil ≤ Instant.latest.nanos

def IsMeasured (t : Tenure) : Prop :=
  0 ≤ t.ttl ∧ t.ttl ≤ maxTtl.millis ∧
    2 * Instant.earliest.nanos ≤ t.validUntil ∧ t.validUntil ≤ 2 * Instant.latest.nanos

theorem IsRegular.isMeasured {t : Tenure} (h : t.IsRegular) : t.IsMeasured := by
  have hearliest := Instant.nanos_earliest
  have hlatest := Instant.nanos_latest
  obtain ⟨hpositive, hmax, hlow, hhigh⟩ := h
  exact ⟨hpositive, hmax, by omega, by omega⟩

def term (grain : Int) (ttl : Span) : Int := floorTo grain (ttl.nanos + grantPadding.nanos)

theorem term_one (ttl : Span) : term 1 ttl = ttl.nanos + grantPadding.nanos := by
  rw [term, floorTo, Int.ediv_one, Int.mul_one]

def granted (grain now : Int) (claim : Claim) : Tenure :=
  ⟨claim.leaseId, claim.nonce, now + term grain claim.ttl, claim.ttl.millis, claim.metadata, now, now⟩

def renewed (t : Tenure) (grain now : Int) (newNonce : String) (ttl : Span) : Tenure :=
  { t with
    nonce := newNonce
    validUntil := max t.validUntil (now + term grain ttl)
    ttl := ttl.millis
    updatedAt := now }

end Tenure

def Fits (reading : Int) (ttl : Span) : Prop :=
  reading + ttl.nanos + grantPadding.nanos ≤ Instant.latest.nanos

instance (reading : Int) (ttl : Span) : Decidable (Fits reading ttl) :=
  inferInstanceAs (Decidable (reading + ttl.nanos + grantPadding.nanos ≤ Instant.latest.nanos))

def Span.IsWholeTtl (ttl : Span) : Prop := isValidTtl ttl = true ∧ ttl.nanos % nanosPerMilli = 0

theorem Span.IsWholeTtl.range {ttl : Span} (h : ttl.IsWholeTtl) :
    ∃ ms : Nat, ttl.nanos = ms * nanosPerMilli ∧ ttl.millis = ms ∧ ms ≤ maxTtl.millis := by
  obtain ⟨hvalid, hwhole⟩ := h
  have hmax : ttl.nanos ≤ maxTtl.nanos := by
    simp only [isValidTtl, decide_eq_true_eq] at hvalid
    exact hvalid.2
  have hnanos := nanos_maxTtl
  have hmillis := millis_maxTtl
  simp only [nanosPerMilli] at hwhole
  refine ⟨ttl.millis, ?_, rfl, ?_⟩
  · simp only [Span.millis, nanosPerMilli]
    omega
  · simp only [Span.millis, nanosPerMilli]
    omega

inductive Change (grain now : Int) (newNonce key : String) :
    Call → Option Tenure → Option Tenure → Prop
  | keep (call : Call) (t : Option Tenure) : Change grain now newNonce key call t t
  | take (claim : Claim) (t : Option Tenure) (hkey : claim.key = key)
      (hfree : ∀ old ∈ t, old.validUntil ≤ now) :
      Change grain now newNonce key (.acquire claim) t (some (.granted grain now claim))
  | free (leaseId nonce : String) (old : Tenure) (howned : old.IsOwnedBy leaseId nonce) :
      Change grain now newNonce key (.release key leaseId nonce) (some old) none
  | extend (leaseId nonce : String) (ttl : Span) (old : Tenure)
      (howned : old.IsOwnedBy leaseId nonce)
      (hearly : old.IsRegular → now < old.validUntil - old.margin) :
      Change grain now newNonce key (.renew key leaseId nonce ttl) (some old)
        (some (old.renewed grain now newNonce ttl))
  | drop (t : Option Tenure) : Change grain now newNonce key .close t none

end LeaseLock
