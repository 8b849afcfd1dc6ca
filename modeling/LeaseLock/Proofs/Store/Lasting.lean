import LeaseLock.Proofs.Store.Run

/-!
A lease lasts from its last grant or renewal for its time to live and the padding at least. Every call
keeps this, whatever the times to live and the readings of the clock, and it is what makes the margin
of a lease safe to compute.
-/

namespace LeaseLock

namespace Tenure

variable {t : Tenure} {grain now : Int}

def Lasts (t : Tenure) : Prop :=
  t.updatedAt + t.ttl * nanosPerMilli + grantPadding.nanos ≤ t.validUntil

def IsGrain (grain : Int) : Prop := grain = 1 ∨ grain = nanosPerMilli

theorem le_term (hgrain : IsGrain grain) (ttl : Span) :
    ttl.millis * nanosPerMilli + grantPadding.nanos ≤ term grain ttl := by
  have hpadding := nanos_grantPadding
  obtain rfl | rfl := hgrain
  · rw [term_one]
    simp only [Span.millis, nanosPerMilli]
    omega
  · simp only [term, floorTo, Span.millis, hpadding, nanosPerMilli]
    omega

theorem lasts_granted (hgrain : IsGrain grain) (now : Int) (claim : Claim) :
    (granted grain now claim).Lasts := by
  have hterm := le_term hgrain claim.ttl
  simp only [Lasts, granted]
  omega

theorem lasts_renewed (hgrain : IsGrain grain) (t : Tenure) (now : Int) (newNonce : String)
    (ttl : Span) : (t.renewed grain now newNonce ttl).Lasts := by
  have hterm := le_term hgrain ttl
  simp only [Lasts, renewed]
  omega

end Tenure

theorem Change.lasts {grain now : Int} {newNonce key : String} {call : Call} {t after : Option Tenure}
    (h : Change grain now newNonce key call t after) (hgrain : Tenure.IsGrain grain)
    (ht : ∀ old ∈ t, old.Lasts) : ∀ new ∈ after, new.Lasts := by
  cases h with
  | keep => exact ht
  | take claim _ _ _ =>
    rintro _ ⟨⟩
    exact Tenure.lasts_granted hgrain now claim
  | free => nofun
  | extend leaseId nonce ttl old _ _ =>
    rintro _ ⟨⟩
    exact Tenure.lasts_renewed hgrain old now newNonce ttl
  | drop => nofun

namespace Lease

variable {l : Lease} {now : Instant}

theorem isRenewableAt?_of_lasts (hl : l.IsOrdinary) (h : l.tenure.Lasts) (hn : now.IsOrdinary) :
    l.isRenewableAt? now = some (decide (now.nanos < l.tenure.validUntil - l.tenure.margin)) := by
  have hfirst := l.updatedAt.earliest_le_nanos
  have hlast := hl.1.nanos_le_latest
  simp only [Tenure.Lasts, tenure] at h
  apply isRenewableAt?_eq hl hn
  · have hearliest := Instant.nanos_earliest
    have hlatest := Instant.nanos_latest
    simp only [marginPercent, UInt64.size, nanosPerMilli] at h ⊢
    omega
  · simp only [Tenure.margin, tenure, marginPercent]
    simp only [nanosPerMilli] at h ⊢
    omega

end Lease

namespace Backing

variable {b : Backing}

def Lasting (b : Backing) : Prop := ∀ key, ∀ t ∈ b.tenure? key, t.Lasts

theorem isGrain_grain (b : Backing) : Tenure.IsGrain b.grain := by
  cases b with
  | memory registry => exact .inl rfl
  | sql store => exact .inr rfl

theorem Lasting.visit (h : b.Lasting) (hsound : b.Sound) (v : Visit) : (b.visit v).Lasting := by
  intro key
  unfold Backing.visit
  split
  · exact (change hsound _ _ key _).lasts b.isGrain_grain (h key)
  · intro t ht
    exact h key t (tenure?_of_purgeAt hsound ht)

theorem Lasting.after (h : b.Lasting) (hsound : b.Sound) (visits : List Visit) :
    (b.after visits).Lasting := by
  induction visits generalizing b with
  | nil => exact h
  | cons v rest ih => exact ih (h.visit hsound v) (hsound.visit v)

end Backing

end LeaseLock
