import LeaseLock.Proofs.Store.Run

namespace LeaseLock

/-- A row says of a key what a lease says, in all eight fields. -/
structure Mirrors (key : String) (row : Sql.Row) (lease : Lease) : Prop where
  key : lease.key = key
  leaseId : lease.leaseId = row.leaseId
  nonce : lease.nonce = row.nonce
  validUntil : Instant.ofMillis? row.validUntil = some lease.validUntil
  ttl : lease.ttl.nanos = row.ttlMillis * nanosPerMilli
  metadata : lease.metadata = row.metadata
  createdAt : Instant.ofMillis? row.createdAt = some lease.createdAt
  updatedAt : Instant.ofMillis? row.updatedAt = some lease.updatedAt

def InYears (ms : Int) : Prop := 0 ≤ ms ∧ ms ≤ 253402300799999

structure Step where
  call : Call
  millis : Int
  newNonce : String

namespace Step

def visit (s : Step) : Visit := ⟨.call s.call, s.millis * nanosPerMilli, s.newNonce⟩

def IsCommon (s : Step) : Prop :=
  InYears s.millis ∧
    match s.call with
    | .acquire claim => claim.ttl.IsWholeTtl
    | .renew _ _ _ ttl => ttl.IsWholeTtl
    | .probe => False
    | _ => True

end Step

namespace Mirrors

variable {key : String} {row : Sql.Row} {lease : Lease}

theorem isOrdinary (h : Mirrors key row lease) : lease.IsOrdinary :=
  ⟨(Instant.ofMillis?_eq_some h.validUntil).1, (Instant.ofMillis?_eq_some h.createdAt).1,
    (Instant.ofMillis?_eq_some h.updatedAt).1⟩

theorem tenure_eq (h : Mirrors key row lease) : lease.tenure = row.tenure := by
  have httl : (lease.ttl.millis : Int) = row.ttlMillis := by
    have hnanos := h.ttl
    simp only [Span.millis, nanosPerMilli] at hnanos ⊢
    omega
  simp only [Lease.tenure, Sql.Row.tenure, h.leaseId, h.nonce, h.metadata, httl,
    (Instant.ofMillis?_eq_some h.validUntil).2, (Instant.ofMillis?_eq_some h.createdAt).2,
    (Instant.ofMillis?_eq_some h.updatedAt).2]

theorem isExpiredAt_iff (h : Mirrors key row lease) {ms : Int} {now : Instant}
    (hnow : Instant.ofMillis? ms = some now) :
    lease.isExpiredAt now = true ↔ row.validUntil ≤ ms := by
  obtain ⟨hordinary, hnanos⟩ := Instant.ofMillis?_eq_some hnow
  rw [Lease.isExpiredAt_iff h.isOrdinary hordinary, h.tenure_eq, hnanos]
  simp only [Sql.Row.tenure, nanosPerMilli]
  omega

theorem isOwnedBy_iff (h : Mirrors key row lease) (leaseId nonce : String) :
    lease.isOwnedBy leaseId nonce = true ↔ row.leaseId = leaseId ∧ row.nonce = nonce := by
  rw [Lease.isOwnedBy_iff, h.tenure_eq]
  rfl

end Mirrors

theorem InYears.exists_instant {ms : Int} (h : InYears ms) :
    ∃ now, Instant.ofMillis? ms = some now := by
  have hearliest := Instant.nanos_earliest
  have hlatest := Instant.nanos_latest
  obtain ⟨hlow, hhigh⟩ := h
  apply Registry.exists_instant
  · simp only [hearliest, nanosPerMilli]
    omega
  · simp only [hlatest, nanosPerMilli]
    omega

theorem expiry_eq_instant {ms : Int} {now : Instant} {ttl : Span} (hms : InYears ms)
    (hnow : Instant.ofMillis? ms = some now) (httl : ttl.IsWholeTtl) :
    ∃ span validUntil, Sql.Store.spans ttl = .ok (span, ttl.millis) ∧
      Registry.expiry now ttl = .ok validUntil ∧
      Instant.ofMillis? (ms + span) = some validUntil ∧ 0 ≤ span := by
  obtain ⟨hordinary, hnanos⟩ := Instant.ofMillis?_eq_some hnow
  obtain ⟨ttlMillis, hwhole, -, hmax⟩ := httl.range
  have hlimit := millis_maxTtl
  have hpadding := nanos_grantPadding
  have hearliest := Instant.nanos_earliest
  have hlatest := Instant.nanos_latest
  obtain ⟨hlow, hhigh⟩ := hms
  have hfits : Fits (ms * nanosPerMilli) ttl := by
    simp only [Fits, hlatest, hwhole, hpadding, nanosPerMilli]
    omega
  have hbegin : 2 * Instant.earliest.nanos ≤ ms * nanosPerMilli := by
    simp only [hearliest, nanosPerMilli]
    omega
  obtain ⟨span, hspans, hspan⟩ := Sql.Store.exists_spans hbegin hfits
  obtain ⟨validUntil, hexpiry⟩ := Registry.expiry_of_le hordinary (hnanos ▸ hfits)
  obtain ⟨hend, hendNanos⟩ := Registry.expiry_eq_ok hordinary hexpiry
  simp only [Tenure.term, floorTo, hwhole, hpadding, nanosPerMilli] at hspan hnanos hendNanos
  have hsum : (ms + span) * (nanosPerMilli : Int) = validUntil.nanos := by
    simp only [nanosPerMilli]
    omega
  refine ⟨span, validUntil, hspans, hexpiry, ?_, by omega⟩
  rw [Instant.ofMillis?, hsum, Instant.ofNanos?_nanos hend]

structure Tied (key : String) (row : Sql.Row) (lease : Lease) : Prop where
  mirrors : Mirrors key row lease
  validUntil : 0 ≤ row.validUntil
  ttl : 0 ≤ row.ttlMillis ∧ row.ttlMillis ≤ maxTtl.millis

structure Linked (registry : Registry) (store : Sql.Store) (table : Sql.LeaseTable) : Prop where
  open_memory : registry.closed = false
  open_table : store.table = .ok table
  rows : ∀ key, Option.Rel (Tied key) (table.find? key) (registry.leases.find? key)

theorem Tied.isRegular {key : String} {row : Sql.Row} {lease : Lease} (h : Tied key row lease) :
    row.tenure.IsRegular := by
  have hrange := And.intro lease.validUntil.earliest_le_nanos h.mirrors.isOrdinary.1.nanos_le_latest
  rw [(Instant.ofMillis?_eq_some h.mirrors.validUntil).2] at hrange
  exact ⟨h.ttl.1, h.ttl.2, hrange⟩

theorem tied_granted {ms span : Int} {now validUntil : Instant} (hms : InYears ms)
    (hnow : Instant.ofMillis? ms = some now) (claim : Claim) (httl : claim.ttl.IsWholeTtl)
    (hend : Instant.ofMillis? (ms + span) = some validUntil) (hspan : 0 ≤ span) :
    Tied claim.key
      ⟨claim.leaseId, claim.nonce, ms + span, claim.ttl.millis, claim.metadata, ms, ms⟩
      ⟨claim.key, claim.leaseId, claim.nonce, validUntil, claim.ttl, claim.metadata, now, now⟩ := by
  obtain ⟨ttlMillis, hwhole, hmillis, hmax⟩ := httl.range
  refine ⟨⟨rfl, rfl, rfl, hend, ?_, rfl, hnow, hnow⟩, Int.add_nonneg hms.1 hspan, ?_⟩
  · rw [hwhole, hmillis]
    rfl
  · rw [hmillis]
    exact ⟨Int.natCast_nonneg _, Int.ofNat_le.mpr hmax⟩

theorem Tied.renewed {key : String} {row : Sql.Row} {lease : Lease} (h : Tied key row lease)
    {ms ending : Int} {now validUntil : Instant} (hnow : Instant.ofMillis? ms = some now) {ttl : Span}
    (httl : ttl.IsWholeTtl)
    (hend : Instant.ofMillis? (max row.validUntil ending) = some validUntil) (newNonce : String) :
    Tied key
      { row with
        validUntil := max row.validUntil ending
        ttlMillis := ttl.millis
        nonce := newNonce
        updatedAt := ms }
      { lease with
        validUntil := validUntil
        ttl := ttl
        nonce := newNonce
        updatedAt := now } := by
  obtain ⟨ttlMillis, hwhole, hmillis, hmax⟩ := httl.range
  refine ⟨⟨h.mirrors.key, h.mirrors.leaseId, rfl, hend, ?_, h.mirrors.metadata, h.mirrors.createdAt,
    hnow⟩, Int.le_trans h.validUntil (Int.le_max_left _ _), ?_⟩
  · rw [hwhole, hmillis]
    rfl
  · rw [hmillis]
    exact ⟨Int.natCast_nonneg _, Int.ofNat_le.mpr hmax⟩

theorem Tied.isRenewableAt?_eq {key : String} {row : Sql.Row} {lease : Lease}
    (h : Tied key row lease) {ms : Int} {now : Instant} (hnow : Instant.ofMillis? ms = some now) :
    lease.isRenewableAt? now = some ((Sql.LeaseTable.renewableUntil row).exceeds ms) := by
  obtain ⟨hordinary, hnanos⟩ := Instant.ofMillis?_eq_some hnow
  have hregular := h.isRegular
  have hlow : Instant.earliest.nanos ≤ row.tenure.validUntil - row.tenure.margin := by
    have hearliest := Instant.nanos_earliest
    have hlimit := millis_maxTtl
    have hvalid := h.validUntil
    have httl := h.ttl
    simp only [hearliest, Sql.Row.tenure, Tenure.margin, marginPercent, nanosPerMilli]
    omega
  have heq := Lease.isRenewableAt?_eq h.mirrors.isOrdinary hordinary
    (Lease.lt_of_ttl_le (h.mirrors.tenure_eq ▸ hregular.2.1)) (h.mirrors.tenure_eq ▸ hlow)
  rw [heq, h.mirrors.tenure_eq, hnanos, Option.some.injEq, Bool.eq_iff_iff, decide_eq_true_eq,
    Sql.exceeds_iff hregular.isMeasured]

theorem Sql.Store.instant_eq {ms : Int} {t : Instant} (h : Instant.ofMillis? ms = some t) :
    Sql.Store.instant ms = .ok t := by
  have hrange := Instant.ofNanos?_isSome_iff.mp (Option.isSome_of_eq_some h)
  obtain ⟨found, hfound⟩ := Sql.Store.instant_of_range hrange.1 hrange.2
  have hnanos := (Sql.Store.instant_eq_ok hfound).2
  have hsame := Instant.ofNanos?_nanos (Sql.Store.instant_eq_ok hfound).1
  rw [hnanos] at hsame
  rw [hfound, Option.some.inj (hsame.symm.trans h)]

theorem Tied.max_eq {key : String} {row : Sql.Row} {lease : Lease} (h : Tied key row lease)
    {ms : Int} {t : Instant} (ht : Instant.ofMillis? ms = some t) :
    Instant.ofMillis? (max row.validUntil ms) = some (max t lease.validUntil) ∧
      Sql.Store.instant (max row.validUntil ms) = .ok (max t lease.validUntil) := by
  have hvalid := Instant.ofMillis?_eq_some h.mirrors.validUntil
  have hend := Instant.ofMillis?_eq_some ht
  have hmax : (max t lease.validUntil).nanos = max row.validUntil ms * nanosPerMilli := by
    rw [Instant.nanos_max hend.1 hvalid.1, hend.2, hvalid.2]
    simp only [nanosPerMilli]
    omega
  have hinstant : Instant.ofMillis? (max row.validUntil ms) = some (max t lease.validUntil) := by
    rw [Instant.ofMillis?, ← hmax, Instant.ofNanos?_nanos (Instant.max_ordinary hend.1 hvalid.1)]
  exact ⟨hinstant, Sql.Store.instant_eq hinstant⟩

theorem Tied.holding_eq {key : String} {row : Sql.Row} {lease : Lease} (h : Tied key row lease)
    {ms : Int} {now : Instant} (hms : InYears ms) (hnow : Instant.ofMillis? ms = some now) :
    (if lease.isExpiredAt now then .ok .free else .ok ⟨true, lease.remainingAt now⟩) =
      Sql.Store.holding row.validUntil ms := by
  have hvalid := Instant.ofMillis?_eq_some h.mirrors.validUntil
  have hend := Instant.ofMillis?_eq_some hnow
  have hlatest := Instant.nanos_latest
  have hrange := h.isRegular.2.2.2
  have hnonneg := h.validUntil
  obtain ⟨hlow, hhigh⟩ := hms
  simp only [Sql.Row.tenure, hlatest, nanosPerMilli] at hrange
  have hword : Sql.isWord row.validUntil = true := Sql.isWord_of_lt (by omega) (by omega)
  have hleft : Sql.isWord (row.validUntil - ms) = true := Sql.isWord_of_lt (by omega) (by omega)
  simp only [Sql.Store.holding, hword, hleft, Bool.not_true, Bool.or_self, Bool.false_eq_true,
    if_false]
  by_cases hexpired : row.validUntil ≤ ms
  · rw [if_pos ((h.mirrors.isExpiredAt_iff hnow).mpr hexpired), if_neg (by omega)]
  · rw [if_neg (mt (h.mirrors.isExpiredAt_iff hnow).mp hexpired), if_pos (by omega)]
    have hremaining : lease.remainingAt now =
        .ofMillis (UInt64.ofNat (row.validUntil - ms).toNat) := by
      apply Span.eq_of_nanos
      have hsmall : (row.validUntil - ms).toNat < 2 ^ 64 := by omega
      simp only [Lease.remainingAt, Instant.since, Instant.nanosSince_eq hend.1 hvalid.1, hend.2,
        hvalid.2, Span.ofMillis, UInt64.toNat_ofNat', Nat.mod_eq_of_lt hsmall, nanosPerMilli]
      omega
    rw [hremaining]

namespace Linked

variable {registry : Registry} {store : Sql.Store} {table : Sql.LeaseTable} {ms : Int}
  {now : Instant} {key leaseId nonce newNonce : String} {ttl : Span}

theorem insert (h : Linked registry store table) {after : Registry} {row : Sql.Row} {lease : Lease}
    (htied : Tied key row lease) (hopen : after.closed = false)
    (hleases : after.leases = registry.leases.insert key lease) :
    Linked after (store.withTable (table.insert key row)) (table.insert key row) := by
  refine ⟨hopen, Sql.Store.table_withTable h.open_table _, ?_⟩
  intro other
  simp only [hleases, Keyed.find?_insert]
  by_cases hother : other = key
  · subst hother
    simpa only [if_true] using .some htied
  · simpa only [if_neg hother] using h.rows other

theorem erase (h : Linked registry store table) {after : Registry} (hopen : after.closed = false)
    (hleases : after.leases = registry.leases.erase key) :
    Linked after (store.withTable (table.erase key)) (table.erase key) := by
  refine ⟨hopen, Sql.Store.table_withTable h.open_table _, ?_⟩
  intro other
  simp only [hleases, Keyed.find?_erase]
  by_cases hother : other = key
  · simpa only [if_pos hother] using .none
  · simpa only [if_neg hother] using h.rows other

theorem keep (h : Linked registry store table) {after : Registry} (hopen : after.closed = false)
    (hleases : after.leases = registry.leases) : Linked after (store.withTable table) table := by
  refine ⟨hopen, Sql.Store.table_withTable h.open_table _, ?_⟩
  rw [hleases]
  exact h.rows

theorem acquire (h : Linked registry store table) (hms : InYears ms)
    (hnow : Instant.ofMillis? ms = some now) (claim : Claim) (httl : claim.ttl.IsWholeTtl) :
    (registry.acquire (some now) claim).1 = (store.acquire ms claim).outcome ∧
      ∃ after, Linked (registry.acquire (some now) claim).2 (store.acquire ms claim).state after := by
  obtain ⟨span, validUntil, hspans, hexpiry, hend, hspan⟩ := expiry_eq_instant hms hnow httl
  have hprepared : store.prepared claim.ttl = .ok ((span, claim.ttl.millis), table) :=
    Sql.Store.prepared_eq_ok.mpr ⟨hspans, h.open_table⟩
  have hinstant := Sql.Store.instant_eq hend
  have htied := tied_granted hms hnow claim httl hend hspan
  simp only [Registry.acquire, h.open_memory, Bool.false_eq_true, if_false, Registry.acquireAt,
    hexpiry, Registry.attempt_ok, Sql.Store.acquire, hprepared, Sql.Store.attempt_ok,
    Sql.LeaseTable.acquire]
  have hrows := h.rows claim.key
  generalize hrow : table.find? claim.key = row at hrows
  generalize hlease : registry.leases.find? claim.key = lease at hrows
  cases hrows with
  | none =>
    simp only [hinstant, Outcome.map]
    exact ⟨trivial, _, h.insert htied rfl rfl⟩
  | @some row lease hold =>
    by_cases hexpired : row.validUntil ≤ ms
    · simp only [(hold.mirrors.isExpiredAt_iff hnow).mpr hexpired, hexpired, if_true, hinstant,
        Outcome.map]
      exact ⟨trivial, _, h.insert htied rfl rfl⟩
    · have hunexpired : lease.isExpiredAt now = false := by
        rw [← Bool.not_eq_true, hold.mirrors.isExpiredAt_iff hnow]
        exact hexpired
      simp only [hunexpired, hexpired, Bool.false_eq_true, if_false]
      exact ⟨trivial, table, h.keep rfl rfl⟩

theorem release (h : Linked registry store table) (key leaseId nonce : String) :
    (registry.release key leaseId nonce).1 = (store.release key leaseId nonce).outcome ∧
      ∃ after, Linked (registry.release key leaseId nonce).2
        (store.release key leaseId nonce).state after := by
  simp only [Registry.release, h.open_memory, Bool.false_eq_true, if_false, Sql.Store.release,
    h.open_table, Sql.Store.attempt_ok, Sql.LeaseTable.release]
  have hrows := h.rows key
  generalize hrow : table.find? key = row at hrows
  generalize hlease : registry.leases.find? key = lease at hrows
  cases hrows with
  | none => exact ⟨rfl, table, h.keep h.open_memory rfl⟩
  | @some row lease hold =>
    have howned := hold.mirrors.isOwnedBy_iff leaseId nonce
    by_cases hmatch : row.leaseId = leaseId ∧ row.nonce = nonce
    · simp only [howned.mpr hmatch, if_pos hmatch, if_true]
      exact ⟨trivial, _, h.erase rfl rfl⟩
    · have hforeign : lease.isOwnedBy leaseId nonce = false := by
        rw [← Bool.not_eq_true, howned]
        exact hmatch
      simp only [hforeign, if_neg hmatch, Bool.false_eq_true, if_false]
      exact ⟨trivial, table, h.keep h.open_memory rfl⟩

theorem renew (h : Linked registry store table) (hms : InYears ms)
    (hnow : Instant.ofMillis? ms = some now) (key leaseId nonce newNonce : String)
    (httl : ttl.IsWholeTtl) :
    (registry.renew (some now) key leaseId nonce ttl newNonce).1 =
        (store.renew ms key leaseId nonce ttl newNonce).outcome ∧
      ∃ after, Linked (registry.renew (some now) key leaseId nonce ttl newNonce).2
        (store.renew ms key leaseId nonce ttl newNonce).state after := by
  obtain ⟨span, granted, hspans, hexpiry, hend, hspan⟩ := expiry_eq_instant hms hnow httl
  have hprepared : store.prepared ttl = .ok ((span, ttl.millis), table) :=
    Sql.Store.prepared_eq_ok.mpr ⟨hspans, h.open_table⟩
  simp only [Registry.renew, h.open_memory, Bool.false_eq_true, if_false, Sql.Store.renew, hprepared,
    Sql.Store.attempt_ok, Sql.LeaseTable.renew]
  have hrows := h.rows key
  generalize hrow : table.find? key = row at hrows
  generalize hlease : registry.leases.find? key = lease at hrows
  cases hrows with
  | none => exact ⟨rfl, table, h.keep h.open_memory rfl⟩
  | @some row lease hold =>
    have howned := hold.mirrors.isOwnedBy_iff leaseId nonce
    have hrenewable := hold.isRenewableAt?_eq hnow
    simp only [Registry.renewAt, hrenewable, hexpiry, Registry.attempt_ok]
    by_cases hmatch : row.leaseId = leaseId ∧ row.nonce = nonce
    · cases hexceeds : (Sql.LeaseTable.renewableUntil row).exceeds ms with
      | false =>
        simp only [howned.mpr hmatch, Bool.not_true, Bool.false_eq_true, and_false, if_false]
        exact ⟨trivial, table, h.keep h.open_memory rfl⟩
      | true =>
        obtain ⟨hlater, hinstant⟩ := hold.max_eq hend
        have htied := hold.renewed hnow httl hlater newNonce
        simp only [howned.mpr hmatch]
        obtain ⟨rfl, rfl⟩ := hmatch
        simp only [Bool.not_true, Bool.false_eq_true, and_self, if_false, if_true, hinstant,
          Outcome.map]
        exact ⟨trivial, _, h.insert htied h.open_memory rfl⟩
    · have hforeign : lease.isOwnedBy leaseId nonce = false := by
        rw [← Bool.not_eq_true, howned]
        exact hmatch
      have hnot : ¬(row.leaseId = leaseId ∧ row.nonce = nonce ∧
          (Sql.LeaseTable.renewableUntil row).exceeds ms = true) :=
        fun hall => hmatch ⟨hall.1, hall.2.1⟩
      simp only [hforeign, if_neg hnot, Bool.not_false, if_true]
      exact ⟨trivial, table, h.keep h.open_memory rfl⟩

theorem isHeld (h : Linked registry store table) (hms : InYears ms)
    (hnow : Instant.ofMillis? ms = some now) (key : String) :
    registry.isHeld (some now) key = store.isHeld ms key := by
  simp only [Registry.isHeld, h.open_memory, Bool.false_eq_true, if_false, Sql.Store.isHeld,
    h.open_table, Outcome.ok_bind, Sql.LeaseTable.validUntil?]
  have hrows := h.rows key
  generalize hrow : table.find? key = row at hrows
  generalize hlease : registry.leases.find? key = lease at hrows
  cases hrows with
  | none => rfl
  | @some row lease hold => exact hold.holding_eq hms hnow

end Linked

namespace Backing

variable {b c : Backing}

def Mirrored : Backing → Backing → Prop
  | .memory registry, .sql store => ∃ table, store.table = .ok table ∧
      ∀ key, Option.Rel (Mirrors key) (table.find? key) (registry.leases.find? key)
  | _, _ => False

def answers (b : Backing) : List Step → List (Sigma fun call : Call => Outcome call.Answer)
  | [] => []
  | s :: rest =>
    ⟨s.call, (b.applyAt s.visit.reading s.newNonce s.call).outcome⟩ :: (b.visit s.visit).answers rest

def Related : Backing → Backing → Prop
  | .memory registry, .sql store => ∃ table, Linked registry store table
  | _, _ => False

theorem Related.mirrored (h : Related b c) : Mirrored b c := by
  cases b with
  | sql store => exact h.elim
  | memory registry =>
    cases c with
    | memory other => exact h.elim
    | sql store =>
      obtain ⟨table, hlinked⟩ := h
      refine ⟨table, hlinked.open_table, ?_⟩
      intro key
      have hrow := hlinked.rows key
      generalize table.find? key = row at hrow
      generalize registry.leases.find? key = lease at hrow
      cases hrow with
      | none => exact .none
      | some htied => exact .some htied.mirrors

theorem Related.step (h : Related b c) {s : Step} (hs : s.IsCommon) :
    (b.applyAt s.visit.reading s.newNonce s.call).outcome =
        (c.applyAt s.visit.reading s.newNonce s.call).outcome ∧
      (s.call ≠ .close → Related (b.visit s.visit) (c.visit s.visit)) := by
  cases b with
  | sql store => exact h.elim
  | memory registry =>
    cases c with
    | memory other => exact h.elim
    | sql store =>
      obtain ⟨table, hlinked⟩ := h
      obtain ⟨call, ms, newNonce⟩ := s
      obtain ⟨hms, hcall⟩ := hs
      obtain ⟨now, hnow⟩ := hms.exists_instant
      have hmillis : ms * (nanosPerMilli : Int) / nanosPerMilli = ms :=
        Int.mul_ediv_cancel ms (by decide)
      have hreading : Instant.ofNanos? (ms * nanosPerMilli) = some now := hnow
      cases call with
      | acquire claim =>
        obtain ⟨houtcome, hafter⟩ := hlinked.acquire hms hnow claim hcall
        simp only [Step.visit, visit, applyAt, Registry.apply, Sql.Store.applyAt, hreading, hmillis]
        exact ⟨houtcome, fun _ => hafter⟩
      | release key leaseId nonce =>
        obtain ⟨houtcome, hafter⟩ := hlinked.release key leaseId nonce
        simp only [Step.visit, visit, applyAt, Registry.apply, Sql.Store.applyAt]
        exact ⟨houtcome, fun _ => hafter⟩
      | renew key leaseId nonce ttl =>
        obtain ⟨houtcome, hafter⟩ := hlinked.renew hms hnow key leaseId nonce newNonce hcall
        simp only [Step.visit, visit, applyAt, Registry.apply, Sql.Store.applyAt, hreading, hmillis]
        exact ⟨houtcome, fun _ => hafter⟩
      | isHeld key =>
        simp only [Step.visit, visit, applyAt, Registry.apply, Sql.Store.applyAt, hreading, hmillis]
        exact ⟨hlinked.isHeld hms hnow key, fun _ => ⟨table, hlinked⟩⟩
      | probe => exact hcall.elim
      | close =>
        simp only [applyAt, Registry.apply, Sql.Store.applyAt, Sql.Store.close]
        refine ⟨?_, fun hnot => absurd rfl hnot⟩
        split
        · rfl
        · rfl

theorem IsClosed.answers_eq (hb : b.IsClosed) (hc : c.IsClosed) (steps : List Step) :
    b.answers steps = c.answers steps := by
  induction steps generalizing b c with
  | nil => rfl
  | cons s rest ih =>
    simp only [answers, hb.applyAt_eq, hc.applyAt_eq]
    rw [ih (hb.visit s.visit) (hc.visit s.visit)]

theorem Related.answers_eq (h : Related b c) (steps : List Step) (hsteps : ∀ s ∈ steps, s.IsCommon) :
    b.answers steps = c.answers steps := by
  induction steps generalizing b c with
  | nil => rfl
  | cons s rest ih =>
    obtain ⟨houtcome, hrelated⟩ := h.step (hsteps s List.mem_cons_self)
    have hrest : (b.visit s.visit).answers rest = (c.visit s.visit).answers rest := by
      by_cases hclose : s.call = .close
      · obtain ⟨call, ms, newNonce⟩ := s
        subst hclose
        exact (isClosed_close b _ _).answers_eq (isClosed_close c _ _) rest
      · exact ih (hrelated hclose) fun t ht => hsteps t (List.mem_cons_of_mem s ht)
    rw [answers, answers, houtcome, hrest]

theorem Related.after (h : Related b c) (steps : List Step) (hsteps : ∀ s ∈ steps, s.IsCommon)
    (hopen : ∀ s ∈ steps, s.call ≠ .close) :
    Related (b.after (steps.map Step.visit)) (c.after (steps.map Step.visit)) := by
  induction steps generalizing b c with
  | nil => exact h
  | cons s rest ih =>
    have hnext := (h.step (hsteps s List.mem_cons_self)).2 (hopen s List.mem_cons_self)
    exact ih hnext (fun t ht => hsteps t (List.mem_cons_of_mem s ht))
      fun t ht => hopen t (List.mem_cons_of_mem s ht)

theorem related_new {store : Sql.Store} (hempty : store.table = .ok .empty) :
    Related (.memory .new) (.sql store) := by
  refine ⟨.empty, rfl, hempty, ?_⟩
  intro key
  exact .none

/-- In lockstep from empty, the two stores give the same answers, and hold the same leases up to the
first close. -/
theorem answers_eq_and_mirrored {store : Sql.Store} (hempty : store.table = .ok .empty)
    (steps : List Step) (hsteps : ∀ s ∈ steps, s.IsCommon) :
    (memory .new).answers steps = (sql store).answers steps ∧
      ∀ earlier later, steps = earlier ++ later → (∀ s ∈ earlier, s.call ≠ .close) →
        Mirrored ((memory .new).after (earlier.map Step.visit))
          ((sql store).after (earlier.map Step.visit)) := by
  have hrelated := related_new hempty
  refine ⟨hrelated.answers_eq steps hsteps, ?_⟩
  rintro earlier later rfl hopen
  apply Related.mirrored
  apply hrelated.after earlier _ hopen
  intro s hs
  exact hsteps s (List.mem_append_left later hs)

def handover : List Step :=
  [⟨.acquire ⟨"job", "first", "n1", .ofMillis 1000, "\x7b\x7d"⟩, 5000, ""⟩,
    ⟨.acquire ⟨"job", "second", "n2", .ofMillis 1000, "\x7b\x7d"⟩, 6009, ""⟩,
    ⟨.renew "job" "first" "n1" (.ofMillis 20), 5859, "n3"⟩,
    ⟨.acquire ⟨"job", "second", "n4", .ofMillis 1, "\x7b\x7d"⟩, 6010, ""⟩,
    ⟨.isHeld "job", 6010, ""⟩, ⟨.close, 0, ""⟩, ⟨.release "job" "second" "n4", 0, ""⟩]

theorem answers_eq_and_mirrored_handover :
    ∃ store events,
      Sql.Store.new .sqlite .standard (.open ⟨"locker_locks", some .empty⟩) = .ok (store, events) ∧
        store.table = .ok .empty ∧ (∀ s ∈ handover, s.IsCommon) ∧
        (memory .new).answers handover = (sql store).answers handover ∧
        ∀ earlier later, handover = earlier ++ later → (∀ s ∈ earlier, s.call ≠ .close) →
          Mirrored ((memory .new).after (earlier.map Step.visit))
            ((sql store).after (earlier.map Step.visit)) := by
  have hcommon : ∀ s ∈ handover, s.IsCommon := by
    simp only [handover, List.forall_mem_cons, Step.IsCommon, InYears, Span.IsWholeTtl,
      List.not_mem_nil, false_implies, implies_true]
    decide
  exact ⟨_, _, rfl, rfl, hcommon, answers_eq_and_mirrored rfl handover hcommon⟩

end Backing

end LeaseLock
