import LeaseLock.Proofs.Store.Run

namespace LeaseLock.Backing

variable {b : Backing} {reading : Int} {newNonce : String} {token : Token}

def IsReady : Backing → Prop
  | .memory registry => registry.closed = false
  | .sql store => ∃ table, store.table = .ok table

def Records (b : Backing) (nonce : String) : Prop :=
  ∃ key, ∃ t ∈ b.tenure? key, t.nonce = nonce

def Matches (b : Backing) (token : Token) : Prop :=
  ∃ t ∈ b.tenure? token.key, t.IsOwnedBy token.leaseId token.nonce

def Agrees (b : Backing) (token : Token) : Prop :=
  ∃ t ∈ b.tenure? token.key, t.IsOwnedBy token.leaseId token.nonce ∧
    t.validUntil = token.validUntil.nanos

theorem IsReady.applyAt (h : b.IsReady) (reading : Int) (newNonce : String) {call : Call}
    (hcall : call ≠ .close) : (b.applyAt reading newNonce call).state.IsReady := by
  cases b with
  | memory registry => exact registry.open_apply h reading newNonce hcall
  | sql store =>
    obtain ⟨table, htable⟩ := h
    exact Sql.Store.exists_table_applyAt htable (reading / nanosPerMilli) newNonce hcall

theorem IsReady.purgeAt (h : b.IsReady) (reading : Int) : (b.purgeAt reading).IsReady := by
  unfold Backing.purgeAt
  split
  · exact h
  · exact h

theorem tenure?_of_contended {claim : Claim}
    (h : (b.applyAt reading newNonce (.acquire claim)).outcome = .ok .contended) (key : String) :
    (b.applyAt reading newNonce (.acquire claim)).state.tenure? key = b.tenure? key := by
  cases b with
  | memory registry =>
    obtain ⟨_, _, _, _, _, _, houtcome, _⟩ | ⟨_, _, hleases⟩ :=
      Registry.acquire_cases registry (Instant.ofNanos? reading) claim
    · cases houtcome.symm.trans h
    · exact congrArg (fun leases : Keyed Lease => (leases.find? key).map Lease.tenure) hleases
  | sql store =>
    obtain ⟨_, _, _, _, _, houtcome, _⟩ | ⟨_, hsame⟩ :=
      Sql.Store.acquire_cases store (reading / nanosPerMilli) claim
    · obtain ⟨_, _, hgranted⟩ := Sql.Store.map_eq_ok (houtcome.symm.trans h)
      cases hgranted
    · exact congrArg (fun s : Sql.Store => s.tenure? key) hsame

theorem release_of_not_matches (hready : b.IsReady) (h : ¬b.Matches token) :
    (b.applyAt reading newNonce (.release token.key token.leaseId token.nonce)).outcome = .ok 0 ∧
      (b.applyAt reading newNonce (.release token.key token.leaseId token.nonce)).state = b := by
  cases b with
  | memory registry =>
    have hopen : registry.closed = false := hready
    obtain ⟨lease, _, hfind, howned, _⟩ | ⟨_, houtcome, hsame⟩ :=
      Registry.release_cases registry token.key token.leaseId token.nonce
    · refine absurd ⟨lease.tenure, ?_, Lease.isOwnedBy_iff.mp howned⟩ h
      simp [tenure?, Registry.tenure?, hfind]
    · rw [hopen] at houtcome
      exact ⟨houtcome, congrArg memory hsame⟩
  | sql store =>
    obtain ⟨table, htable⟩ := hready
    obtain ⟨found, row, hfound, hfind, howned, _⟩ | ⟨_, houtcome, hsame⟩ :=
      Sql.Store.release_cases store token.key token.leaseId token.nonce
    · refine absurd ⟨row.tenure, ?_, howned⟩ h
      simp [tenure?, Sql.Store.tenure?_of_table hfound, hfind]
    · exact ⟨houtcome table htable, congrArg sql hsame⟩

theorem fits_of_isValidTtl {ttl : Span} (h : isValidTtl ttl = true) : Fits 0 ttl := by
  have hmax : ttl.nanos ≤ maxTtl.nanos := by
    simp only [isValidTtl, decide_eq_true_eq] at h
    exact h.2
  have hlimit := nanos_maxTtl
  have hpadding := nanos_grantPadding
  have hlatest := Instant.nanos_latest
  simp only [Fits, hpadding, hlatest]
  omega

theorem renew_of_not_matches (hready : b.IsReady) (h : ¬b.Matches token) {ttl : Span}
    (httl : isValidTtl ttl = true) (hlow : Instant.earliest.nanos ≤ reading)
    (hhigh : reading ≤ Instant.latest.nanos) :
    (b.applyAt reading newNonce (.renew token.key token.leaseId token.nonce ttl)).outcome =
        .ok none ∧
      (b.applyAt reading newNonce (.renew token.key token.leaseId token.nonce ttl)).state = b := by
  have hforeign : ∀ old ∈ b.tenure? token.key, ¬old.IsOwnedBy token.leaseId token.nonce :=
    fun old hold howned => h ⟨old, hold, howned⟩
  cases b with
  | memory registry =>
    have hrenew := Registry.renew_of_foreign hready hforeign hlow hhigh ttl newNonce
    simp [applyAt, Registry.apply, hrenew]
  | sql store =>
    obtain ⟨table, htable⟩ := hready
    obtain ⟨span, hspans, -⟩ := Sql.Store.exists_spans (by decide) (fits_of_isValidTtl httl)
    obtain ⟨houtcome, hstate⟩ := Sql.Store.renew_of_foreign htable hspans hforeign
    exact ⟨houtcome, congrArg sql hstate⟩

end LeaseLock.Backing
