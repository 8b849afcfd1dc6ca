import LeaseLock.Proofs.Store.Registry

namespace LeaseLock

inductive Verdict
  | granted
  | contended
  | failed
  | released
  | renewed
  | mismatched
  deriving DecidableEq

def Call.verdict? : (call : Call) → Outcome call.Answer → Option Verdict
  | .acquire _, .ok (.granted _) => some .granted
  | .acquire _, .ok .contended => some .contended
  | .acquire _, .failed _ => some .failed
  | .release _ _ _, .ok removed => some (if removed = 0 then .mismatched else .released)
  | .renew _ _ _ _, .ok renewal? => some (if renewal?.isSome then .renewed else .mismatched)
  | _, _ => none

structure RegistryCounts.Tells (c : RegistryCounts) (verdicts : List Verdict) : Prop where
  acquisitions : c.acquisitions = .ofNat (verdicts.count .granted)
  contended : c.contended = .ofNat (verdicts.count .contended)
  releases : c.releases = .ofNat (verdicts.count .released)
  renewals : c.renewals = .ofNat (verdicts.count .renewed)

namespace Registry

variable {r : Registry} {clock : Option Instant} {purged : Nat}

theorem acquire_entry (r : Registry) (clock : Option Instant) (claim : Claim) :
    (∃ lease validUntil, r.leases.find? claim.key = none ∧
      r.acquire clock claim = (.ok (.granted validUntil), { r with
        leases := r.leases.insert claim.key lease
        counts := { r.counts with acquisitions := r.counts.acquisitions + 1 } })) ∨
    (∃ old lease validUntil, r.leases.find? claim.key = some old ∧
      r.acquire clock claim = (.ok (.granted validUntil), { r with
        leases := r.leases.insert claim.key lease
        counts := { r.counts with
          takeovers := r.counts.takeovers + 1
          acquisitions := r.counts.acquisitions + 1 } })) ∨
    r.acquire clock claim = (.ok .contended, { r with
      counts := { r.counts with contended := r.counts.contended + 1 } }) ∨
    (∃ fault, r.acquire clock claim = (.failed fault, r)) ∨
    r.acquire clock claim = (.overflow, r) := by
  obtain ⟨now, validUntil, counts, -, -, -, hentry, heq⟩ | hrest := acquire_eq r clock claim
  · obtain ⟨hnone, rfl⟩ | ⟨old, hsome, -, rfl⟩ := hentry
    · exact .inl ⟨_, validUntil, hnone, heq⟩
    · exact .inr (.inl ⟨old, _, validUntil, hsome, heq⟩)
  · exact .inr (.inr hrest)

theorem release_entry (r : Registry) (key leaseId nonce : String) :
    (∃ old, r.leases.find? key = some old ∧ r.release key leaseId nonce = (.ok 1, { r with
      leases := r.leases.erase key
      counts := { r.counts with releases := r.counts.releases + 1 } })) ∨
    r.release key leaseId nonce = (.ok 0, r) ∨ r.release key leaseId nonce = (.failed .closed, r) := by
  obtain ⟨old, -, hfind, -, heq⟩ | ⟨-, heq⟩ := release_eq r key leaseId nonce
  · exact .inl ⟨old, hfind, heq⟩
  · cases hclosed : r.closed <;> simp [heq, hclosed]

theorem renew_entry (r : Registry) (clock : Option Instant) (key leaseId nonce : String) (ttl : Span)
    (newNonce : String) :
    (∃ old lease renewal, r.leases.find? key = some old ∧
      r.renew clock key leaseId nonce ttl newNonce = (.ok (some renewal), { r with
        leases := r.leases.insert key lease
        counts := { r.counts with renewals := r.counts.renewals + 1 } })) ∨
    ((∀ renewal, (r.renew clock key leaseId nonce ttl newNonce).1 ≠ .ok (some renewal)) ∧
      (r.renew clock key leaseId nonce ttl newNonce).2 = r) := by
  obtain ⟨now, old, granted, -, -, hfind, -, -, -, heq⟩ | hsame :=
    renew_eq r clock key leaseId nonce ttl newNonce
  · exact .inl ⟨old, _, _, hfind, heq⟩
  · exact .inr hsame

theorem tells_new : new.counts.Tells [] := ⟨rfl, rfl, rfl, rfl⟩

theorem tells_apply {verdicts : List Verdict} (h : r.counts.Tells verdicts) (clock : Option Instant)
    (newNonce : String) (call : Call) :
    (r.apply clock newNonce call).state.counts.Tells
      ((call.verdict? (r.apply clock newNonce call).outcome).toList ++ verdicts) := by
  obtain ⟨hacquisitions, hcontended, hreleases, hrenewals⟩ := h
  cases call with
  | acquire claim =>
    simp only [apply]
    obtain ⟨_, _, _, heq⟩ | ⟨_, _, _, _, heq⟩ | heq | ⟨_, heq⟩ | heq := acquire_entry r clock claim <;>
      rw [heq] <;> constructor <;> simp [Call.verdict?, *]
  | release key leaseId nonce =>
    simp only [apply]
    obtain ⟨_, _, heq⟩ | heq | heq := release_entry r key leaseId nonce <;>
      rw [heq] <;> constructor <;> simp [Call.verdict?, *]
  | renew key leaseId nonce ttl =>
    simp only [apply]
    obtain ⟨_, _, _, _, heq⟩ | ⟨hnot, hsame⟩ := renew_entry r clock key leaseId nonce ttl newNonce
    · rw [heq]
      constructor <;> simp [Call.verdict?, *]
    · rw [hsame]
      generalize (r.renew clock key leaseId nonce ttl newNonce).1 = outcome at hnot
      cases outcome with
      | ok renewal? =>
        cases renewal? with
        | some renewal => exact absurd rfl (hnot renewal)
        | none => constructor <;> simp [Call.verdict?, *]
      | failed fault => constructor <;> simp [Call.verdict?, *]
      | overflow => constructor <;> simp [Call.verdict?, *]
  | isHeld key => constructor <;> simp [apply, Call.verdict?, *]
  | probe => constructor <;> simp [apply, Call.verdict?, *]
  | close =>
    have hcounts : r.close.counts = r.counts := by
      unfold close
      split <;> rfl
    constructor <;> simp [apply, Call.verdict?, *]

/-- Every acquisition took over a lease, or its lease was released, was purged or is left. -/
def Balanced (r : Registry) (purged : Nat) : Prop :=
  r.closed = false →
    r.counts.acquisitions =
      r.counts.takeovers + r.counts.releases + .ofNat purged + .ofNat r.leases.size

theorem balanced_new : new.Balanced 0 := fun _ => rfl

theorem Balanced.apply (h : r.Balanced purged) (hr : r.Sound) (clock : Option Instant)
    (newNonce : String) (call : Call) : (r.apply clock newNonce call).state.Balanced purged := by
  cases call with
  | acquire claim =>
    intro hopen
    simp only [Registry.apply] at hopen ⊢
    obtain ⟨_, _, hfind, heq⟩ | ⟨_, _, _, hfind, heq⟩ | heq | ⟨_, heq⟩ | heq :=
      acquire_entry r clock claim <;> rw [heq] at hopen ⊢
    · simp only [h hopen, Keyed.size_insert_of_none hfind, UInt64.ofNat_add]
      grind
    · simp only [h hopen, Keyed.size_insert_of_some hfind]
      grind
    · exact h hopen
    · exact h hopen
    · exact h hopen
  | release key leaseId nonce =>
    intro hopen
    simp only [Registry.apply] at hopen ⊢
    obtain ⟨_, hfind, heq⟩ | heq | heq := release_entry r key leaseId nonce <;> rw [heq] at hopen ⊢
    · have hsize := Keyed.size_erase hr.distinct hfind
      simp only [h hopen, ← hsize, UInt64.ofNat_add]
      grind
    · exact h hopen
    · exact h hopen
  | renew key leaseId nonce ttl =>
    intro hopen
    simp only [Registry.apply] at hopen ⊢
    obtain ⟨_, _, _, hfind, heq⟩ | ⟨_, hsame⟩ := renew_entry r clock key leaseId nonce ttl newNonce
    · rw [heq] at hopen ⊢
      simp only [h hopen, Keyed.size_insert_of_some hfind]
    · rw [hsame] at hopen ⊢
      exact h hopen
  | isHeld key => exact h
  | probe => exact h
  | close =>
    intro hopen
    simp only [Registry.apply, close] at hopen
    split at hopen
    · simp_all
    · cases hopen

theorem Balanced.purge (h : r.Balanced purged) (now : Instant) :
    (r.purge now).2.Balanced (purged + (r.purge now).1) := by
  intro hopen
  have hle := Keyed.size_filter_le r.leases fun lease => !lease.isExpiredAt now
  simp only [Registry.purge] at hopen ⊢
  rw [h hopen, ← Nat.sub_add_cancel hle, Nat.add_sub_cancel]
  simp only [UInt64.ofNat_add]
  grind

end Registry

end LeaseLock
