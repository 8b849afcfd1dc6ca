import LeaseLock.Proofs.Store.Keyed
import LeaseLock.Proofs.Store.Tenure
import LeaseLock.Store.Registry

namespace LeaseLock

theorem safetyMargin?_of_lt {ttl : Span} (h : ttl.millis * marginPercent < UInt64.size) :
    ∃ margin, safetyMargin? ttl = some margin ∧
      (margin.nanos : Int) = ttl.millis * marginPercent / 100 * nanosPerMilli := by
  have hword : ttl.millisWord.toNat = ttl.millis := by
    simp only [marginPercent, UInt64.size] at h
    simp only [Span.millisWord, UInt64.toNat_ofNat']
    omega
  refine ⟨.ofMillis (UInt64.ofNat (ttl.millis * marginPercent / 100)), ?_, ?_⟩
  · simp only [safetyMargin?, hword, h, if_true]
  · have hfit : ttl.millis * marginPercent / 100 < 2 ^ 64 := by
      simp only [UInt64.size] at h
      omega
    simp only [Span.ofMillis, UInt64.toNat_ofNat', Nat.mod_eq_of_lt hfit]
    simp only [marginPercent, nanosPerMilli]
    omega

namespace Lease

variable {l : Lease} {now : Instant}

def IsOrdinary (l : Lease) : Prop :=
  l.validUntil.IsOrdinary ∧ l.createdAt.IsOrdinary ∧ l.updatedAt.IsOrdinary

def tenure (l : Lease) : Tenure :=
  ⟨l.leaseId, l.nonce, l.validUntil.nanos, l.ttl.millis, l.metadata, l.createdAt.nanos,
    l.updatedAt.nanos⟩

theorem isExpiredAt_iff (hl : l.IsOrdinary) (hn : now.IsOrdinary) :
    l.isExpiredAt now = true ↔ l.tenure.validUntil ≤ now.nanos := by
  simp only [isExpiredAt, decide_eq_true_eq, tenure]
  exact Instant.le_iff_nanos_le hl.1 hn

theorem isOwnedBy_iff {leaseId nonce : String} :
    l.isOwnedBy leaseId nonce = true ↔ l.tenure.IsOwnedBy leaseId nonce := by
  simp [isOwnedBy, Tenure.IsOwnedBy, tenure]

theorem lt_of_ttl_le (h : l.tenure.ttl ≤ maxTtl.millis) :
    l.ttl.millis * marginPercent < UInt64.size := by
  have hmax := millis_maxTtl
  simp only [tenure] at h
  simp only [marginPercent, UInt64.size]
  omega

theorem exists_margin (h : l.ttl.millis * marginPercent < UInt64.size) :
    ∃ margin, safetyMargin? l.ttl = some margin ∧
      (margin.nanos : Int) = l.ttl.millis * marginPercent / 100 * nanosPerMilli ∧
      shift? margin = some margin ∧ l.renewableUntil? = l.validUntil.sub? margin := by
  obtain ⟨margin, hsome, hnanos⟩ := safetyMargin?_of_lt h
  have hshift : shift? margin = some margin := by
    apply if_pos
    simp only [marginPercent, nanosPerMilli, maxShiftMillis, UInt64.size] at h hnanos ⊢
    omega
  refine ⟨margin, hsome, hnanos, hshift, ?_⟩
  simp only [renewableUntil?, hsome, hshift, Option.bind_eq_bind, Option.bind_some,
    Option.getD_some]

theorem renewableUntil?_eq (hl : l.IsOrdinary) (h : l.ttl.millis * marginPercent < UInt64.size) :
    l.renewableUntil? = Instant.ofNanos? (l.tenure.validUntil - l.tenure.margin) := by
  obtain ⟨margin, -, hnanos, -, huntil⟩ := exists_margin h
  rw [huntil, Instant.sub?, Instant.shift?_eq_ofNanos? hl.1, hnanos]
  rfl

theorem lt_of_isRenewableAt? (hl : l.IsOrdinary) (hn : now.IsOrdinary)
    (hmargin : l.ttl.millis * marginPercent < UInt64.size) (h : l.isRenewableAt? now = some true) :
    now.nanos < l.tenure.validUntil - l.tenure.margin := by
  simp only [isRenewableAt?, renewableUntil?_eq hl hmargin, Option.map_eq_some_iff,
    decide_eq_true_eq] at h
  obtain ⟨limit, hlimit, hlt⟩ := h
  rw [Instant.lt_iff_nanos_lt hn (Instant.ordinary_of_ofNanos? hlimit),
    Instant.nanos_of_ofNanos? hlimit] at hlt
  exact hlt

theorem margin_nonneg (l : Lease) : 0 ≤ l.tenure.margin := Tenure.margin_nonneg (Int.natCast_nonneg _)

theorem isRenewableAt?_eq (hl : l.IsOrdinary) (hn : now.IsOrdinary)
    (h : l.ttl.millis * marginPercent < UInt64.size)
    (hlow : Instant.earliest.nanos ≤ l.tenure.validUntil - l.tenure.margin) :
    l.isRenewableAt? now = some (decide (now.nanos < l.tenure.validUntil - l.tenure.margin)) := by
  have hmargin := l.margin_nonneg
  have hlatest := hl.1.nanos_le_latest
  obtain ⟨limit, hlimit⟩ : ∃ limit, Instant.ofNanos? (l.tenure.validUntil - l.tenure.margin) =
      some limit := by
    refine Option.isSome_iff_exists.mp (Instant.ofNanos?_isSome_iff.mpr ⟨hlow, ?_⟩)
    simp only [tenure] at hmargin ⊢
    omega
  have hlt := Instant.lt_iff_nanos_lt hn (Instant.ordinary_of_ofNanos? hlimit)
  rw [Instant.nanos_of_ofNanos? hlimit] at hlt
  simp only [isRenewableAt?, renewableUntil?_eq hl h, hlimit, Option.map_some, hlt]

theorem isRenewableAt?_of_lt (hl : l.IsOrdinary) (hn : now.IsOrdinary)
    (hmargin : l.ttl.millis * marginPercent < UInt64.size)
    (h : now.nanos < l.tenure.validUntil - l.tenure.margin) : l.isRenewableAt? now = some true := by
  have hearliest := now.earliest_le_nanos
  rw [isRenewableAt?_eq hl hn hmargin (by omega), decide_eq_true h]

end Lease

namespace Registry

variable {r : Registry} {now : Instant}

theorem shift_eq_ok {span shifted : Span} (h : shift span = .ok shifted) : shifted = span := by
  simp only [shift, Lease.shift?] at h
  split at h <;> simp_all

theorem shift_of_le {span : Span} (h : span.nanos ≤ Lease.maxShiftMillis * nanosPerMilli) :
    shift span = .ok span := by
  rw [shift, Lease.shift?, if_pos h]

theorem add?_of_expiry {ttl : Span} {t : Instant} (h : expiry now ttl = .ok t) :
    ∃ span, span.nanos = ttl.nanos + grantPadding.nanos ∧ now.add? span = some t := by
  obtain ⟨padded, hpadded, h⟩ := Outcome.bind_eq_ok.mp h
  obtain ⟨span, hshift, h⟩ := Outcome.bind_eq_ok.mp h
  rw [shift_eq_ok hshift] at h
  exact ⟨padded, Span.nanos_of_add? (Outcome.ofOption_eq_ok.mp hpadded),
    Outcome.ofOption_eq_ok.mp h⟩

theorem expiry_eq_ok {ttl : Span} {t : Instant} (hn : now.IsOrdinary) (h : expiry now ttl = .ok t) :
    t.IsOrdinary ∧ t.nanos = now.nanos + Tenure.term 1 ttl := by
  obtain ⟨span, hsum, hof⟩ := add?_of_expiry h
  rw [Instant.add?, Instant.shift?_eq_ofNanos? hn, hsum] at hof
  refine ⟨Instant.ordinary_of_ofNanos? hof, ?_⟩
  rw [Instant.nanos_of_ofNanos? hof, Tenure.term_one]
  omega

theorem expiry_of_le {ttl : Span} (hn : now.IsOrdinary)
    (h : now.nanos + ttl.nanos + grantPadding.nanos ≤ Instant.latest.nanos) :
    ∃ t, expiry now ttl = .ok t := by
  have hlow := now.earliest_le_nanos
  have hearliest := Instant.nanos_earliest
  have hlatest := Instant.nanos_latest
  obtain ⟨padded, hpadded⟩ : ∃ padded, ttl.add? grantPadding = some padded := by
    refine ⟨_, Span.add?_of_lt ?_⟩
    simp only [UInt64.size, nanosPerSecond]
    omega
  have hsum := Span.nanos_of_add? hpadded
  have hshift : shift padded = .ok padded := by
    apply shift_of_le
    simp only [Lease.maxShiftMillis, UInt64.size, nanosPerMilli]
    omega
  have hsome : (Instant.ofNanos? (now.nanos + padded.nanos)).isSome := by
    rw [Instant.ofNanos?_isSome_iff]
    omega
  obtain ⟨t, ht⟩ := Option.isSome_iff_exists.mp hsome
  refine ⟨t, ?_⟩
  refine Outcome.bind_eq_ok.mpr ⟨padded, Outcome.ofOption_eq_ok.mpr hpadded, ?_⟩
  refine Outcome.bind_eq_ok.mpr ⟨padded, hshift, Outcome.ofOption_eq_ok.mpr ?_⟩
  rw [Instant.add?, Instant.shift?_eq_ofNanos? hn, ht]

theorem acquire_eq (r : Registry) (clock : Option Instant) (claim : Claim) :
    (∃ now validUntil counts, clock = some now ∧ r.closed = false ∧
      expiry now claim.ttl = .ok validUntil ∧
      (r.leases.find? claim.key = none ∧ counts = r.counts ∨
        ∃ old, r.leases.find? claim.key = some old ∧ old.isExpiredAt now = true ∧
          counts = { r.counts with takeovers := r.counts.takeovers + 1 }) ∧
      r.acquire clock claim = (.ok (.granted validUntil), { r with
        leases := r.leases.insert claim.key
          ⟨claim.key, claim.leaseId, claim.nonce, validUntil, claim.ttl, claim.metadata, now, now⟩
        counts := { counts with acquisitions := counts.acquisitions + 1 } })) ∨
    r.acquire clock claim = (.ok .contended, { r with
      counts := { r.counts with contended := r.counts.contended + 1 } }) ∨
    (∃ fault, r.acquire clock claim = (.failed fault, r)) ∨
    r.acquire clock claim = (.overflow, r) := by
  cases hclosed : r.closed with
  | true => simp [acquire, hclosed]
  | false =>
    cases clock with
    | none => simp [acquire, hclosed]
    | some now =>
      simp only [acquire, hclosed, Bool.false_eq_true, if_false, acquireAt]
      cases hexpiry : expiry now claim.ttl with
      | failed fault => simp
      | overflow => simp
      | ok validUntil =>
        simp only [attempt_ok]
        cases hfind : r.leases.find? claim.key with
        | none => exact .inl ⟨now, validUntil, r.counts, rfl, trivial, hexpiry, .inl ⟨rfl, rfl⟩, rfl⟩
        | some old =>
          cases hold : old.isExpiredAt now with
          | true =>
            exact .inl ⟨now, validUntil, _, rfl, trivial, hexpiry, .inr ⟨old, rfl, hold, rfl⟩,
              by simp [hold]⟩
          | false => exact .inr (.inl (by simp [hold]))

theorem acquire_cases (r : Registry) (clock : Option Instant) (claim : Claim) :
    (∃ now validUntil, clock = some now ∧ r.closed = false ∧
      expiry now claim.ttl = .ok validUntil ∧
      (∀ old, r.leases.find? claim.key = some old → old.isExpiredAt now = true) ∧
      (r.acquire clock claim).1 = .ok (.granted validUntil) ∧
      (r.acquire clock claim).2.closed = false ∧
      (r.acquire clock claim).2.leases = r.leases.insert claim.key
        ⟨claim.key, claim.leaseId, claim.nonce, validUntil, claim.ttl, claim.metadata, now, now⟩) ∨
    ((∀ validUntil, (r.acquire clock claim).1 ≠ .ok (.granted validUntil)) ∧
      (r.acquire clock claim).2.closed = r.closed ∧
      (r.acquire clock claim).2.leases = r.leases) := by
  obtain ⟨now, validUntil, counts, hclock, hopen, hexpiry, hentry, heq⟩ | heq | ⟨fault, heq⟩ | heq :=
    acquire_eq r clock claim
  · refine .inl ⟨now, validUntil, hclock, hopen, hexpiry, ?_, ?_⟩
    · intro old hfind
      obtain ⟨hnone, -⟩ | ⟨found, hsome, hexpired, -⟩ := hentry
      · cases hnone.symm.trans hfind
      · cases hsome.symm.trans hfind
        exact hexpired
    · rw [heq]
      exact ⟨rfl, hopen, rfl⟩
  all_goals exact .inr (by simp [heq])

theorem release_eq (r : Registry) (key leaseId nonce : String) :
    (∃ lease, r.closed = false ∧ r.leases.find? key = some lease ∧
      lease.isOwnedBy leaseId nonce = true ∧
      r.release key leaseId nonce = (.ok 1, { r with
        leases := r.leases.erase key
        counts := { r.counts with releases := r.counts.releases + 1 } })) ∨
    ((∀ lease, r.leases.find? key = some lease → r.closed = false →
        lease.isOwnedBy leaseId nonce = false) ∧
      r.release key leaseId nonce = (if r.closed then .failed .closed else .ok 0, r)) := by
  cases hclosed : r.closed with
  | true => exact .inr (by simp [release, hclosed])
  | false =>
    simp only [release, hclosed, Bool.false_eq_true, if_false]
    cases hfind : r.leases.find? key with
    | none => exact .inr (by simp)
    | some lease =>
      cases howned : lease.isOwnedBy leaseId nonce with
      | true => exact .inl ⟨lease, by simp [howned]⟩
      | false => exact .inr (by simp [howned])

theorem release_cases (r : Registry) (key leaseId nonce : String) :
    (∃ lease, r.closed = false ∧ r.leases.find? key = some lease ∧
      lease.isOwnedBy leaseId nonce = true ∧ (r.release key leaseId nonce).1 = .ok 1 ∧
      (r.release key leaseId nonce).2.closed = false ∧
      (r.release key leaseId nonce).2.leases = r.leases.erase key) ∨
    ((∀ lease, r.leases.find? key = some lease → r.closed = false →
        lease.isOwnedBy leaseId nonce = false) ∧
      (r.release key leaseId nonce).1 = (if r.closed then .failed .closed else .ok 0) ∧
      (r.release key leaseId nonce).2 = r) := by
  obtain ⟨lease, hopen, hfind, howned, heq⟩ | ⟨hforeign, heq⟩ := release_eq r key leaseId nonce
  · rw [heq]
    exact .inl ⟨lease, hopen, hfind, howned, rfl, hopen, rfl⟩
  · rw [heq]
    exact .inr ⟨hforeign, rfl, rfl⟩

theorem renew_eq (r : Registry) (clock : Option Instant) (key leaseId nonce : String) (ttl : Span)
    (newNonce : String) :
    (∃ now lease granted, clock = some now ∧ r.closed = false ∧
      r.leases.find? key = some lease ∧ lease.isOwnedBy leaseId nonce = true ∧
      lease.isRenewableAt? now = some true ∧ expiry now ttl = .ok granted ∧
      r.renew clock key leaseId nonce ttl newNonce =
        (.ok (some ⟨max granted lease.validUntil, newNonce⟩), { r with
          leases := r.leases.insert key { lease with
            validUntil := max granted lease.validUntil
            ttl := ttl
            nonce := newNonce
            updatedAt := now }
          counts := { r.counts with renewals := r.counts.renewals + 1 } })) ∨
    ((∀ renewal, (r.renew clock key leaseId nonce ttl newNonce).1 ≠
        .ok (some renewal)) ∧
      (r.renew clock key leaseId nonce ttl newNonce).2 = r) := by
  cases hclosed : r.closed with
  | true => exact .inr (by simp [renew, hclosed])
  | false =>
    cases hfind : r.leases.find? key with
    | none => exact .inr (by simp [renew, hclosed, hfind])
    | some lease =>
      cases clock with
      | none => exact .inr (by simp [renew, hclosed, hfind])
      | some now =>
        simp only [renew, hclosed, Bool.false_eq_true, if_false, hfind, renewAt]
        cases howned : lease.isOwnedBy leaseId nonce with
        | false => exact .inr (by simp)
        | true =>
          cases hrenewable : lease.isRenewableAt? now with
          | none => exact .inr (by simp)
          | some early =>
            cases early with
            | false => exact .inr (by simp)
            | true =>
              cases hexpiry : expiry now ttl with
              | failed fault => exact .inr (by simp)
              | overflow => exact .inr (by simp)
              | ok granted =>
                exact .inl ⟨now, lease, granted, by simp [howned, hrenewable, hexpiry]⟩

theorem renew_cases (r : Registry) (clock : Option Instant) (key leaseId nonce : String) (ttl : Span)
    (newNonce : String) :
    (∃ now lease granted, clock = some now ∧ r.closed = false ∧
      r.leases.find? key = some lease ∧ lease.isOwnedBy leaseId nonce = true ∧
      lease.isRenewableAt? now = some true ∧ expiry now ttl = .ok granted ∧
      (r.renew clock key leaseId nonce ttl newNonce).1 =
        .ok (some ⟨max granted lease.validUntil, newNonce⟩) ∧
      (r.renew clock key leaseId nonce ttl newNonce).2.closed = false ∧
      (r.renew clock key leaseId nonce ttl newNonce).2.leases =
        r.leases.insert key { lease with
          validUntil := max granted lease.validUntil
          ttl := ttl
          nonce := newNonce
          updatedAt := now }) ∨
    ((∀ renewal, (r.renew clock key leaseId nonce ttl newNonce).1 ≠
        .ok (some renewal)) ∧
      (r.renew clock key leaseId nonce ttl newNonce).2 = r) := by
  obtain ⟨now, lease, granted, hclock, hopen, hfind, howned, hrenewable, hexpiry, heq⟩ | hsame :=
    renew_eq r clock key leaseId nonce ttl newNonce
  · rw [heq]
    exact .inl ⟨now, lease, granted, hclock, hopen, hfind, howned, hrenewable, hexpiry, rfl, hopen,
      rfl⟩
  · exact .inr hsame

/-- Leap seconds never come from a clock, so leases with them cannot arise. -/
structure Sound (r : Registry) : Prop where
  distinct : r.leases.Distinct
  ordinary : ∀ key lease, r.leases.find? key = some lease → lease.IsOrdinary
  closed : r.closed = true → r.leases = .empty

theorem sound_new : new.Sound :=
  ⟨Keyed.distinct_empty, by simp [new], fun _ => rfl⟩

theorem Sound.open_of_find? (hr : r.Sound) {key : String} {lease : Lease}
    (h : r.leases.find? key = some lease) : r.closed = false := by
  cases hclosed : r.closed with
  | false => rfl
  | true => simp [hr.closed hclosed] at h

theorem Sound.insert {q : Registry} {key : String} {lease : Lease} (hr : r.Sound)
    (hl : lease.IsOrdinary) (hleases : q.leases = r.leases.insert key lease)
    (hclosed : q.closed = false) : q.Sound := by
  refine ⟨hleases ▸ hr.distinct.insert key lease, ?_, by simp [hclosed]⟩
  intro other found hfound
  rw [hleases, Keyed.find?_insert] at hfound
  split at hfound
  · cases hfound
    exact hl
  · exact hr.ordinary other found hfound

theorem Sound.congr {q : Registry} (hr : r.Sound) (hclosed : q.closed = r.closed)
    (hleases : q.leases = r.leases) : q.Sound :=
  ⟨hleases ▸ hr.distinct, hleases ▸ hr.ordinary, fun h => hleases.trans (hr.closed (hclosed ▸ h))⟩

theorem Sound.acquire (hr : r.Sound) (reading : Int) (claim : Claim) :
    (r.acquire (Instant.ofNanos? reading) claim).2.Sound := by
  obtain ⟨now, validUntil, hnow, _, hexpiry, _, _, hclosed, hleases⟩ | ⟨_, hclosed, hleases⟩ :=
    acquire_cases r (Instant.ofNanos? reading) claim
  · have hn := Instant.ordinary_of_ofNanos? hnow
    exact hr.insert ⟨(expiry_eq_ok hn hexpiry).1, hn, hn⟩ hleases hclosed
  · exact hr.congr hclosed hleases

theorem Sound.release (hr : r.Sound) (key leaseId nonce : String) :
    (r.release key leaseId nonce).2.Sound := by
  obtain ⟨lease, _, _, _, _, hclosed, hleases⟩ | ⟨_, _, hsame⟩ := release_cases r key leaseId nonce
  · refine ⟨hleases ▸ hr.distinct.erase key, ?_, by simp [hclosed]⟩
    intro other found hfound
    rw [hleases, Keyed.find?_erase] at hfound
    split at hfound
    · cases hfound
    · exact hr.ordinary other found hfound
  · rw [hsame]
    exact hr

theorem Sound.renew (hr : r.Sound) (reading : Int) (key leaseId nonce : String) (ttl : Span)
    (newNonce : String) :
    (r.renew (Instant.ofNanos? reading) key leaseId nonce ttl newNonce).2.Sound := by
  obtain ⟨now, lease, granted, hnow, _, hfind, _, _, hexpiry, _, hclosed, hleases⟩ | ⟨_, hsame⟩ :=
    renew_cases r (Instant.ofNanos? reading) key leaseId nonce ttl newNonce
  · have hn := Instant.ordinary_of_ofNanos? hnow
    have hl := hr.ordinary key lease hfind
    refine hr.insert ?_ hleases hclosed
    exact ⟨Instant.max_ordinary (expiry_eq_ok hn hexpiry).1 hl.1, hl.2.1, hn⟩
  · rw [hsame]
    exact hr

theorem Sound.close (hr : r.Sound) : r.close.Sound := by
  unfold Registry.close
  split
  · exact hr
  · exact ⟨Keyed.distinct_empty, by simp, fun _ => rfl⟩

theorem Sound.apply (hr : r.Sound) (reading : Int) (newNonce : String) (call : Call) :
    (r.apply (Instant.ofNanos? reading) newNonce call).state.Sound := by
  cases call with
  | acquire claim => exact hr.acquire reading claim
  | release key leaseId nonce => exact hr.release key leaseId nonce
  | renew key leaseId nonce ttl => exact hr.renew reading key leaseId nonce ttl newNonce
  | isHeld key => exact hr
  | probe => exact hr
  | close => exact hr.close

theorem open_apply (r : Registry) (hopen : r.closed = false) (reading : Int) (newNonce : String)
    {call : Call} (hcall : call ≠ .close) :
    (r.apply (Instant.ofNanos? reading) newNonce call).state.closed = false := by
  cases call with
  | acquire claim =>
    obtain ⟨_, _, _, _, _, _, _, hclosed, _⟩ | ⟨_, hclosed, _⟩ :=
      acquire_cases r (Instant.ofNanos? reading) claim
    · exact hclosed
    · exact hclosed.trans hopen
  | release key leaseId nonce =>
    obtain ⟨_, _, _, _, _, hclosed, _⟩ | ⟨_, _, hsame⟩ := release_cases r key leaseId nonce
    · exact hclosed
    · exact (congrArg Registry.closed hsame).trans hopen
  | renew key leaseId nonce ttl =>
    obtain ⟨_, _, _, _, _, _, _, _, _, _, hclosed, _⟩ | ⟨_, hsame⟩ :=
      renew_cases r (Instant.ofNanos? reading) key leaseId nonce ttl newNonce
    · exact hclosed
    · exact (congrArg Registry.closed hsame).trans hopen
  | isHeld key => exact hopen
  | probe => exact hopen
  | close => exact absurd rfl hcall

theorem Sound.purge (hr : r.Sound) (now : Instant) : (r.purge now).2.Sound := by
  refine ⟨hr.distinct.filter _, ?_, ?_⟩
  · intro key lease hfind
    simp only [Registry.purge, Keyed.find?_filter hr.distinct, Option.filter_eq_some_iff] at hfind
    exact hr.ordinary key lease hfind.1
  · intro hclosed
    simp only [Registry.purge, hr.closed hclosed]
    rfl

def tenure? (r : Registry) (key : String) : Option Tenure := (r.leases.find? key).map Lease.tenure

theorem change_acquire (hr : r.Sound) (reading : Int) (newNonce key : String) (claim : Claim) :
    Change 1 reading newNonce key (.acquire claim) (r.tenure? key)
      ((r.acquire (Instant.ofNanos? reading) claim).2.tenure? key) := by
  obtain ⟨now, validUntil, hnow, _, hexpiry, hfree, _, _, hleases⟩ | ⟨_, _, hleases⟩ :=
    acquire_cases r (Instant.ofNanos? reading) claim
  · have hn := Instant.ordinary_of_ofNanos? hnow
    have hreading := Instant.nanos_of_ofNanos? hnow
    simp only [tenure?, hleases, Keyed.find?_insert]
    by_cases hkey : key = claim.key
    · subst hkey
      simp only [if_true, Option.map_some, Lease.tenure, (expiry_eq_ok hn hexpiry).2, hreading]
      apply Change.take claim _ rfl
      intro old hold
      obtain ⟨lease, hfind, rfl⟩ := Option.map_eq_some_iff.mp hold
      rw [← hreading, ← Lease.isExpiredAt_iff (hr.ordinary _ lease hfind) hn]
      exact hfree lease hfind
    · rw [if_neg hkey]
      exact .keep _ _
  · rw [tenure?, tenure?, hleases]
    exact .keep _ _

theorem change_release (r : Registry) (reading : Int) (newNonce key other leaseId nonce : String) :
    Change 1 reading newNonce other (.release key leaseId nonce) (r.tenure? other)
      ((r.release key leaseId nonce).2.tenure? other) := by
  obtain ⟨lease, _, hfind, howned, _, _, hleases⟩ | ⟨_, _, hsame⟩ :=
    release_cases r key leaseId nonce
  · simp only [tenure?, hleases, Keyed.find?_erase]
    by_cases hkey : other = key
    · subst hkey
      simp only [if_true, hfind, Option.map_some, Option.map_none]
      exact .free leaseId nonce lease.tenure (Lease.isOwnedBy_iff.mp howned)
    · rw [if_neg hkey]
      exact .keep _ _
  · rw [hsame]
    exact .keep _ _

theorem change_renew (hr : r.Sound) (reading : Int) (newNonce key other leaseId nonce : String)
    (ttl : Span) :
    Change 1 reading newNonce other (.renew key leaseId nonce ttl) (r.tenure? other)
      ((r.renew (Instant.ofNanos? reading) key leaseId nonce ttl newNonce).2.tenure? other) := by
  obtain ⟨now, lease, granted, hnow, _, hfind, howned, hrenewable, hexpiry, _, _, hleases⟩ |
    ⟨_, hsame⟩ := renew_cases r (Instant.ofNanos? reading) key leaseId nonce ttl newNonce
  · have hn := Instant.ordinary_of_ofNanos? hnow
    have hl := hr.ordinary key lease hfind
    obtain ⟨hgranted, hnanos⟩ := expiry_eq_ok hn hexpiry
    simp only [tenure?, hleases, Keyed.find?_insert]
    by_cases hkey : other = key
    · subst hkey
      have hearly (hregular : lease.tenure.IsRegular) :
          reading < lease.tenure.validUntil - lease.tenure.margin := by
        rw [← Instant.nanos_of_ofNanos? hnow]
        exact Lease.lt_of_isRenewableAt? hl hn (Lease.lt_of_ttl_le hregular.2.1) hrenewable
      have hnew : Change 1 reading newNonce other (.renew other leaseId nonce ttl)
          (some lease.tenure) (some (lease.tenure.renewed 1 reading newNonce ttl)) :=
        .extend leaseId nonce ttl lease.tenure (Lease.isOwnedBy_iff.mp howned) hearly
      simpa only [if_true, hfind, Option.map_some, Lease.tenure, Tenure.renewed,
        Instant.nanos_max hgranted hl.1, hnanos, Instant.nanos_of_ofNanos? hnow, Int.max_comm] using hnew
    · rw [if_neg hkey]
      exact .keep _ _
  · rw [hsame]
    exact .keep _ _

theorem change_close (r : Registry) (reading : Int) (newNonce key : String) :
    Change 1 reading newNonce key .close (r.tenure? key) (r.close.tenure? key) := by
  unfold close
  split
  · exact .keep _ _
  · exact .drop _

theorem change (hr : r.Sound) (reading : Int) (newNonce key : String) (call : Call) :
    Change 1 reading newNonce key call (r.tenure? key)
      ((r.apply (Instant.ofNanos? reading) newNonce call).state.tenure? key) := by
  cases call with
  | acquire claim => exact change_acquire hr reading newNonce key claim
  | release k leaseId nonce => exact change_release r reading newNonce k key leaseId nonce
  | renew k leaseId nonce ttl => exact change_renew hr reading newNonce k key leaseId nonce ttl
  | isHeld k => exact .keep _ _
  | probe => exact .keep _ _
  | close => exact change_close r reading newNonce key

theorem acquire_granted (hr : r.Sound) {reading : Int} {claim : Claim} {validUntil : Instant}
    (h : (r.acquire (Instant.ofNanos? reading) claim).1 = .ok (.granted validUntil)) :
    (∀ old ∈ r.tenure? claim.key, old.validUntil ≤ reading) ∧
      (r.acquire (Instant.ofNanos? reading) claim).2.tenure? claim.key =
        some (.granted 1 reading claim) ∧
      validUntil.IsOrdinary ∧ validUntil.nanos = reading + Tenure.term 1 claim.ttl := by
  obtain ⟨now, found, hnow, _, hexpiry, hfree, houtcome, _, hleases⟩ | ⟨hnot, _⟩ :=
    acquire_cases r (Instant.ofNanos? reading) claim
  · have hn := Instant.ordinary_of_ofNanos? hnow
    have hreading := Instant.nanos_of_ofNanos? hnow
    obtain ⟨hordinary, hnanos⟩ := expiry_eq_ok hn hexpiry
    cases houtcome.symm.trans h
    rw [hreading] at hnanos
    refine ⟨?_, ?_, hordinary, hnanos⟩
    · intro old hold
      obtain ⟨lease, hfind, rfl⟩ := Option.map_eq_some_iff.mp hold
      rw [← hreading, ← Lease.isExpiredAt_iff (hr.ordinary _ lease hfind) hn]
      exact hfree lease hfind
    · simp only [tenure?, hleases, Keyed.find?_insert_self, Option.map_some, Lease.tenure, hnanos,
        hreading, Tenure.granted]
  · exact absurd h (hnot validUntil)

theorem renew_renewed (hr : r.Sound) {reading : Int} {key leaseId nonce newNonce : String}
    {ttl : Span} {renewal : Renewal}
    (h : (r.renew (Instant.ofNanos? reading) key leaseId nonce ttl newNonce).1 = .ok (some renewal)) :
    ∃ old, r.tenure? key = some old ∧ old.IsOwnedBy leaseId nonce ∧ renewal.nonce = newNonce ∧
      renewal.validUntil.nanos = (old.renewed 1 reading newNonce ttl).validUntil ∧
      (r.renew (Instant.ofNanos? reading) key leaseId nonce ttl newNonce).2.tenure? key =
        some (old.renewed 1 reading newNonce ttl) := by
  obtain ⟨now, lease, granted, hnow, _, hfind, howned, _, hexpiry, houtcome, _, hleases⟩ |
    ⟨hnot, _⟩ := renew_cases r (Instant.ofNanos? reading) key leaseId nonce ttl newNonce
  · have hn := Instant.ordinary_of_ofNanos? hnow
    have hl := hr.ordinary key lease hfind
    obtain ⟨hgranted, hnanos⟩ := expiry_eq_ok hn hexpiry
    have hmax : (max granted lease.validUntil).nanos =
        max lease.validUntil.nanos (reading + Tenure.term 1 ttl) := by
      rw [Instant.nanos_max hgranted hl.1, hnanos, Instant.nanos_of_ofNanos? hnow, Int.max_comm]
    cases houtcome.symm.trans h
    refine ⟨lease.tenure, by rw [tenure?, hfind]; rfl, Lease.isOwnedBy_iff.mp howned, rfl, hmax, ?_⟩
    simp only [tenure?, hleases, Keyed.find?_insert_self, Option.map_some, Lease.tenure, hmax,
      Instant.nanos_of_ofNanos? hnow, Tenure.renewed]
  · exact absurd h (hnot renewal)

theorem exists_instant {reading : Int} (hlow : Instant.earliest.nanos ≤ reading)
    (hhigh : reading ≤ Instant.latest.nanos) : ∃ now, Instant.ofNanos? reading = some now :=
  Option.isSome_iff_exists.mp (Instant.ofNanos?_isSome_iff.mpr ⟨hlow, hhigh⟩)

theorem acquire_contended (hr : r.Sound) {reading : Int} {claim : Claim} {old : Tenure}
    (hold : r.tenure? claim.key = some old) (hlt : reading < old.validUntil)
    (hlow : Instant.earliest.nanos ≤ reading) (hfits : Fits reading claim.ttl) :
    (r.acquire (Instant.ofNanos? reading) claim).1 = .ok .contended := by
  obtain ⟨lease, hfind, rfl⟩ := Option.map_eq_some_iff.mp hold
  have hopen := hr.open_of_find? hfind
  obtain ⟨now, hnow⟩ := exists_instant hlow (by simp only [Fits] at hfits; omega)
  have hn := Instant.ordinary_of_ofNanos? hnow
  have hreading := Instant.nanos_of_ofNanos? hnow
  obtain ⟨validUntil, hexpiry⟩ := expiry_of_le hn (by rw [hreading]; exact hfits)
  have hunexpired : lease.isExpiredAt now = false := by
    rw [← Bool.not_eq_true, Lease.isExpiredAt_iff (hr.ordinary _ lease hfind) hn, hreading]
    omega
  simp [acquire, hopen, hnow, acquireAt, hexpiry, hfind, hunexpired]

theorem renew_of_lt (hr : r.Sound) {reading : Int} {key leaseId nonce newNonce : String}
    {ttl : Span} {old : Tenure} (hold : r.tenure? key = some old)
    (howned : old.IsOwnedBy leaseId nonce) (hregular : old.IsRegular)
    (hearly : reading < old.validUntil - old.margin) (hlow : Instant.earliest.nanos ≤ reading)
    (hfits : Fits reading ttl) :
    ∃ validUntil, (r.renew (Instant.ofNanos? reading) key leaseId nonce ttl newNonce).1 =
      .ok (some ⟨validUntil, newNonce⟩) := by
  obtain ⟨lease, hfind, rfl⟩ := Option.map_eq_some_iff.mp hold
  have hopen := hr.open_of_find? hfind
  obtain ⟨now, hnow⟩ := exists_instant hlow (by simp only [Fits] at hfits; omega)
  have hn := Instant.ordinary_of_ofNanos? hnow
  have hreading := Instant.nanos_of_ofNanos? hnow
  obtain ⟨granted, hexpiry⟩ := expiry_of_le hn (by rw [hreading]; exact hfits)
  have hrenewable := Lease.isRenewableAt?_of_lt (hr.ordinary key lease hfind) hn
    (Lease.lt_of_ttl_le hregular.2.1) (by rw [hreading]; exact hearly)
  refine ⟨max granted lease.validUntil, ?_⟩
  simp [renew, hopen, hfind, hnow, renewAt, Lease.isOwnedBy_iff.mpr howned, hrenewable, hexpiry]

theorem renew_of_foreign {reading : Int} {key leaseId nonce : String} (hopen : r.closed = false)
    (hforeign : ∀ old ∈ r.tenure? key, ¬old.IsOwnedBy leaseId nonce)
    (hlow : Instant.earliest.nanos ≤ reading) (hhigh : reading ≤ Instant.latest.nanos)
    (ttl : Span) (newNonce : String) :
    r.renew (Instant.ofNanos? reading) key leaseId nonce ttl newNonce = (.ok none, r) := by
  obtain ⟨now, hnow⟩ := exists_instant hlow hhigh
  cases hfind : r.leases.find? key with
  | none => simp [renew, hopen, hfind]
  | some lease =>
    have howned : lease.isOwnedBy leaseId nonce = false := by
      rw [← Bool.not_eq_true, Lease.isOwnedBy_iff]
      apply hforeign
      simp [tenure?, hfind]
    simp [renew, renewAt, hopen, hfind, hnow, howned]

theorem isHeld_of_lt (hr : r.Sound) {reading : Int} {key : String} {old : Tenure}
    (hold : r.tenure? key = some old) (hregular : old.IsRegular)
    (hlow : Instant.earliest.nanos ≤ reading) (hlt : reading < old.validUntil) :
    ∃ remaining, r.isHeld (Instant.ofNanos? reading) key = .ok ⟨true, remaining⟩ := by
  obtain ⟨lease, hfind, rfl⟩ := Option.map_eq_some_iff.mp hold
  have hopen := hr.open_of_find? hfind
  obtain ⟨now, hnow⟩ := exists_instant hlow (by have h := hregular.2.2.2; omega)
  have hn := Instant.ordinary_of_ofNanos? hnow
  have hunexpired : lease.isExpiredAt now = false := by
    rw [← Bool.not_eq_true, Lease.isExpiredAt_iff (hr.ordinary _ lease hfind) hn,
      Instant.nanos_of_ofNanos? hnow]
    omega
  exact ⟨lease.remainingAt now, by simp [isHeld, hopen, hnow, hfind, hunexpired]⟩

end Registry

end LeaseLock
