import LeaseLock.Proofs.Store.Interference
import LeaseLock.Proofs.Store.Refusal

namespace LeaseLock

namespace Registry

variable {r : Registry} {reading : Int}

theorem isHeld_eq_ok (hr : r.Sound) {key : String} {holding : Holding}
    (h : r.isHeld (Instant.ofNanos? reading) key = .ok holding) :
    r.closed = false ∧
      ((∃ old ∈ r.tenure? key, reading < old.validUntil ∧ holding.held = true ∧
          (holding.remaining.nanos : Int) = old.validUntil - reading) ∨
        (∀ old ∈ r.tenure? key, old.validUntil ≤ reading) ∧ holding = .free) := by
  cases hopen : r.closed with
  | true => simp [isHeld, hopen] at h
  | false =>
    cases hnow : Instant.ofNanos? reading with
    | none => simp [isHeld, hopen, hnow] at h
    | some now =>
      cases hfind : r.leases.find? key with
      | none =>
        simp only [isHeld, hopen, hnow, hfind] at h
        cases h
        exact ⟨rfl, .inr (by simp [tenure?, hfind])⟩
      | some lease =>
        have hn := Instant.ordinary_of_ofNanos? hnow
        have hl := hr.ordinary key lease hfind
        have hexpired := Lease.isExpiredAt_iff hl hn
        rw [Instant.nanos_of_ofNanos? hnow] at hexpired
        refine ⟨rfl, ?_⟩
        simp only [tenure?, hfind, Option.map_some, Option.mem_def, Option.some.injEq,
          exists_eq_left', forall_eq']
        simp only [isHeld, hopen, hnow, hfind] at h
        by_cases hlease : lease.isExpiredAt now = true
        · simp only [Bool.false_eq_true, if_false, if_pos hlease] at h
          cases h
          exact .inr ⟨hexpired.mp hlease, rfl⟩
        · simp only [Bool.false_eq_true, if_false, if_neg hlease] at h
          cases h
          have hlt : reading < lease.tenure.validUntil := Int.not_le.mp (mt hexpired.mpr hlease)
          refine .inl ⟨hlt, rfl, ?_⟩
          rw [Lease.remainingAt, Instant.nanos_since hn hl.1, Instant.nanos_of_ofNanos? hnow]
          simp only [Lease.tenure] at hlt ⊢
          omega

theorem acquire_of_free (hr : r.Sound) (hopen : r.closed = false) {claim : Claim}
    (hfree : ∀ old ∈ r.tenure? claim.key, old.validUntil ≤ reading)
    (hlow : Instant.earliest.nanos ≤ reading) (hfits : Fits reading claim.ttl) :
    ∃ validUntil, (r.acquire (Instant.ofNanos? reading) claim).1 = .ok (.granted validUntil) := by
  obtain ⟨now, hnow⟩ := exists_instant hlow (by simp only [Fits] at hfits; omega)
  have hn := Instant.ordinary_of_ofNanos? hnow
  have hreading := Instant.nanos_of_ofNanos? hnow
  obtain ⟨validUntil, hexpiry⟩ := expiry_of_le hn (by rw [hreading]; exact hfits)
  refine ⟨validUntil, ?_⟩
  cases hfind : r.leases.find? claim.key with
  | none => simp [acquire, hopen, hnow, acquireAt, hexpiry, hfind]
  | some lease =>
    have hexpired : lease.isExpiredAt now = true := by
      rw [Lease.isExpiredAt_iff (hr.ordinary _ lease hfind) hn, hreading]
      apply hfree
      simp [tenure?, hfind]
    simp [acquire, hopen, hnow, acquireAt, hexpiry, hfind, hexpired]

end Registry

namespace Sql.Store

variable {s : Store} {t : LeaseTable} {now : Int}

theorem nanos_ofMillis_toNat {ms : Int} (h : isWord ms = true) (hpositive : 0 < ms) :
    ((Span.ofMillis (UInt64.ofNat ms.toNat)).nanos : Int) = ms * nanosPerMilli := by
  simp only [isWord, decide_eq_true_eq, UInt64.size] at h
  have hfit : ms.toNat < 2 ^ 64 := by omega
  simp only [Span.ofMillis, UInt64.toNat_ofNat', Nat.mod_eq_of_lt hfit, nanosPerMilli]
  omega

theorem holding_eq_ok {validUntil : Int} {reported : Holding}
    (h : holding validUntil now = .ok reported) :
    (now < validUntil ∧ reported.held = true ∧
        (reported.remaining.nanos : Int) = (validUntil - now) * nanosPerMilli) ∨
      validUntil ≤ now ∧ reported = .free := by
  simp only [holding] at h
  split at h
  · cases h
  · rename_i hword
    simp only [Bool.or_eq_true, Bool.not_eq_true', not_or, Bool.not_eq_false] at hword
    by_cases hleft : 0 < validUntil - now
    · rw [if_pos hleft] at h
      cases h
      exact .inl ⟨by omega, rfl, nanos_ofMillis_toNat hword.2 hleft⟩
    · rw [if_neg hleft] at h
      cases h
      exact .inr ⟨by omega, rfl⟩

theorem isHeld_eq_ok {key : String} {reported : Holding} (h : s.isHeld now key = .ok reported) :
    (∃ t, s.table = .ok t) ∧
      ((∃ old ∈ s.tenure? key, now * nanosPerMilli < old.validUntil ∧ reported.held = true ∧
          (reported.remaining.nanos : Int) = old.validUntil - now * nanosPerMilli) ∨
        (∀ old ∈ s.tenure? key, old.validUntil ≤ now * nanosPerMilli) ∧ reported = .free) := by
  obtain ⟨t, htable, h⟩ := Outcome.bind_eq_ok.mp h
  refine ⟨⟨t, htable⟩, ?_⟩
  rw [tenure?_of_table htable]
  cases hfind : t.find? key with
  | none =>
    simp only [LeaseTable.validUntil?, hfind, Option.map_none] at h
    cases h
    exact .inr (by simp)
  | some row =>
    simp only [LeaseTable.validUntil?, hfind, Option.map_some] at h
    simp only [Option.map_some, Option.mem_def, Option.some.injEq, exists_eq_left', forall_eq',
      Row.tenure]
    obtain ⟨hlt, hheld, hremaining⟩ | ⟨hle, hfree⟩ := holding_eq_ok h
    · simp only [nanosPerMilli] at hremaining ⊢
      exact .inl ⟨by omega, hheld, by omega⟩
    · simp only [nanosPerMilli]
      exact .inr ⟨by omega, hfree⟩

theorem acquire_of_free (htable : s.table = .ok t) {claim : Claim} {reading : Int}
    (hfree : ∀ old ∈ s.tenure? claim.key, old.validUntil ≤ floorTo nanosPerMilli reading)
    (hlow : Instant.earliest.nanos ≤ reading) (hfits : Fits reading claim.ttl) :
    ∃ validUntil, (s.acquire (reading / nanosPerMilli) claim).outcome =
      .ok (.granted validUntil) := by
  have hearliest := Instant.nanos_earliest
  obtain ⟨span, hspans, hterm⟩ := exists_spans (by omega) hfits
  have hprepared : s.prepared claim.ttl = .ok ((span, claim.ttl.millis), t) :=
    prepared_eq_ok.mpr ⟨hspans, htable⟩
  obtain ⟨validUntil, hv⟩ : ∃ v, instant (reading / nanosPerMilli + span) = .ok v := by
    have hlatest := Instant.nanos_latest
    have hpadding := nanos_grantPadding
    simp only [Fits, Tenure.term, floorTo, nanosPerMilli] at hfits hterm
    apply instant_of_range <;> simp only [nanosPerMilli] <;> omega
  refine ⟨validUntil, ?_⟩
  cases hfind : t.find? claim.key with
  | none => simp [acquire, hprepared, LeaseTable.acquire, hfind, hv, Outcome.map]
  | some row =>
    have hexpired : row.validUntil ≤ reading / nanosPerMilli := by
      have hrow := hfree row.tenure (by simp [tenure?_of_table htable, hfind])
      simp only [Row.tenure, floorTo, nanosPerMilli] at hrow ⊢
      omega
    simp [acquire, hprepared, LeaseTable.acquire, hfind, hexpired, hv, Outcome.map]

end Sql.Store

/-- Neither a call on the key nor the close of the store; expired leases may be purged, but none that
is unexpired at the reading. -/
def Visit.Spares (key : String) (reading : Int) (v : Visit) : Prop :=
  match v.service with
  | .call call => call.key? ≠ some key ∧ call ≠ .close
  | .purge => v.reading ≤ reading

namespace Backing

variable {b : Backing} {reading : Int} {newNonce key : String}

theorem isHeld_eq_ok (h : b.Sound) {reported : Holding}
    (hreported : (b.applyAt reading newNonce (.isHeld key)).outcome = .ok reported) :
    b.IsReady ∧
      ((∃ old ∈ b.tenure? key, b.reads reading < old.validUntil ∧ reported.held = true ∧
          (reported.remaining.nanos : Int) = old.validUntil - b.reads reading) ∨
        (∀ old ∈ b.tenure? key, old.validUntil ≤ b.reads reading) ∧ reported = .free) := by
  cases b with
  | memory registry =>
    rw [reads_memory]
    exact Registry.isHeld_eq_ok h hreported
  | sql store => exact Sql.Store.isHeld_eq_ok hreported

theorem acquire_of_free (h : b.Sound) (hready : b.IsReady) {claim : Claim}
    (hfree : ∀ old ∈ b.tenure? claim.key, old.validUntil ≤ b.reads reading)
    (hlow : Instant.earliest.nanos ≤ reading) (hfits : Fits reading claim.ttl) :
    ∃ validUntil, (b.applyAt reading newNonce (.acquire claim)).outcome =
      .ok (.granted validUntil) := by
  cases b with
  | memory registry =>
    rw [reads_memory] at hfree
    exact Registry.acquire_of_free h hready hfree hlow hfits
  | sql store =>
    obtain ⟨t, htable⟩ := hready
    exact Sql.Store.acquire_of_free htable hfree hlow hfits

theorem tenure?_applyAt_spared (h : b.Sound) (reading : Int) (newNonce : String) {call : Call}
    (hkey : call.key? ≠ some key) (hclose : call ≠ .close) :
    (b.applyAt reading newNonce call).state.tenure? key = b.tenure? key := by
  have hchange := change h reading newNonce key call
  generalize b.tenure? key = before at hchange ⊢
  generalize (b.applyAt reading newNonce call).state.tenure? key = after at hchange ⊢
  cases hchange with
  | keep => rfl
  | take claim _ hsame _ => exact absurd (congrArg some hsame) hkey
  | free leaseId nonce _ _ => exact absurd rfl hkey
  | extend leaseId nonce ttl _ _ _ => exact absurd rfl hkey
  | drop => exact absurd rfl hclose

theorem spared (h : b.Sound) (hready : b.IsReady) (between : List Visit)
    (hspares : ∀ v ∈ between, v.Spares key (b.reads reading)) :
    (b.after between).IsReady ∧
      (∀ t ∈ (b.after between).tenure? key, t ∈ b.tenure? key) ∧
      ∀ t ∈ b.tenure? key, b.reads reading < t.validUntil → t ∈ (b.after between).tenure? key := by
  induction between generalizing b with
  | nil => exact ⟨hready, fun _ ht => ht, fun _ ht _ => ht⟩
  | cons v rest ih =>
    have hreads : (b.visit v).reads reading = b.reads reading := by rw [reads, grain_visit, reads]
    have hstep : (b.visit v).IsReady ∧
        (∀ t ∈ (b.visit v).tenure? key, t ∈ b.tenure? key) ∧
        ∀ t ∈ b.tenure? key, b.reads reading < t.validUntil → t ∈ (b.visit v).tenure? key := by
      have hv := hspares v List.mem_cons_self
      obtain ⟨service, other, newNonce⟩ := v
      cases service with
      | call call =>
        obtain ⟨hkey, hclose⟩ := hv
        have hsame := tenure?_applyAt_spared h other newNonce hkey hclose
        refine ⟨hready.applyAt other newNonce hclose, fun t ht => ?_, fun t ht _ => ?_⟩
        · exact hsame.symm.trans ht
        · exact hsame.trans ht
      | purge =>
        refine ⟨hready.purgeAt other, fun t ht => tenure?_of_purgeAt h ht, fun t ht hlt => ?_⟩
        obtain hsame | ⟨old, hold, hexpired, -⟩ := tenure?_purgeAt h other key
        · exact hsame.trans ht
        · cases hold.symm.trans ht
          have hle : other ≤ b.reads reading := hv
          have hother := b.reads_le other
          omega
    obtain ⟨hopen, hback, hforth⟩ := hstep
    obtain ⟨hlast, hbackRest, hforthRest⟩ := ih (h.visit v) hopen (by
      rw [hreads]
      exact fun w hw => hspares w (List.mem_cons_of_mem v hw))
    rw [hreads] at hforthRest
    refine ⟨hlast, fun t ht => hback t (hbackRest t ht), fun t ht hlt => ?_⟩
    exact hforthRest t (hforth t ht hlt) hlt

theorem firstReading_le_earliest (b : Backing) : b.firstReading ≤ Instant.earliest.nanos := by
  have hearliest := Instant.nanos_earliest
  cases b <;> simp only [firstReading] <;> omega

theorem le_of_reads_le (b : Backing) {now u : Int} (hnow : Instant.earliest.nanos ≤ now)
    (hle : b.reads now ≤ b.reads u) : Instant.earliest.nanos ≤ u := by
  have hearliest := Instant.nanos_earliest
  cases b <;> simp only [reads, grain, floorTo, nanosPerMilli] at hle <;> omega

/-- What is reported of a key is the time for which it cannot be taken: attempts are contended until
then and granted from then on, if the calendar has room for what they ask. -/
theorem isHeld_predicts (hopened : b.IsOpened) (visits : List Visit) {now : Int}
    (hnow : Instant.earliest.nanos ≤ now) {reported : Holding}
    (hreported : ((b.after visits).applyAt now newNonce (.isHeld key)).outcome = .ok reported) :
    (reported.held = true → 0 < reported.remaining.nanos) ∧
      (reported.held = false → reported.remaining = .zero) ∧
      ∀ between u minted claim, claim.key = key → b.reads now ≤ b.reads u → Fits u claim.ttl →
        (∀ v ∈ between, v.Spares key (b.reads u)) →
          let outcome := ((b.after (visits ++ between)).applyAt u minted (.acquire claim)).outcome
          (b.reads u < b.reads now + reported.remaining.nanos → outcome = .ok .contended) ∧
            (b.reads now + reported.remaining.nanos ≤ b.reads u →
              ∃ validUntil, outcome = .ok (.granted validUntil)) := by
  have hsound := hopened.sound.after visits
  have hreads (n : Int) : (b.after visits).reads n = b.reads n := by rw [reads, grain_after, reads]
  obtain ⟨hready, hsays⟩ := isHeld_eq_ok hsound hreported
  rw [hreads] at hsays
  refine ⟨?_, ?_, ?_⟩
  · intro hheld
    obtain ⟨old, _, hlt, _, hremaining⟩ | ⟨_, rfl⟩ := hsays
    · omega
    · cases hheld
  · intro hheld
    obtain ⟨_, _, _, htrue, _⟩ | ⟨_, rfl⟩ := hsays
    · cases htrue.symm.trans hheld
    · rfl
  · rintro between u minted claim rfl hle hfits hspares
    have hu : Instant.earliest.nanos ≤ u := b.le_of_reads_le hnow hle
    obtain ⟨hopen, hback, hforth⟩ := spared hsound hready between (by rwa [hreads])
    have hlater := hsound.after between
    have hlast (n : Int) : ((b.after visits).after between).reads n = b.reads n := by
      rw [reads, grain_after, ← reads, hreads]
    have hfirst : ((b.after visits).after between).firstReading ≤ u := by
      rw [firstReading_after, firstReading_after]
      exact Int.le_trans b.firstReading_le_earliest hu
    rw [hreads] at hforth
    rw [after_append]
    -- No lease has come in between, and the one reported has stayed while it was unexpired.
    obtain ⟨old, hold, _, _, hremaining⟩ | ⟨hfree, rfl⟩ := hsays
    · rw [hremaining]
      refine ⟨fun hlt => ?_, fun hge => ?_⟩
      · have hlt : b.reads u < old.validUntil := by omega
        exact acquire_contended hlater (hforth old hold hlt) (by rwa [hlast]) hfirst hfits
      · refine acquire_of_free hlater hopen (fun t ht => ?_) hu hfits
        cases hold.symm.trans (hback t ht)
        rw [hlast]
        omega
    · refine ⟨fun hlt => ?_, fun _ => ?_⟩
      · simp only [Holding.free, Span.zero] at hlt
        omega
      · refine acquire_of_free hlater hopen (fun t ht => ?_) hu hfits
        have hexpired := hfree t (hback t ht)
        rw [hlast]
        omega

def jobFor (leaseId : String) (ttl : Span) : Claim := ⟨"job", leaseId, leaseId, ttl, ""⟩

def sinceEpoch : List Visit := [⟨.call (.acquire (jobFor "first" (.ofMillis 1000))), 0, ""⟩]

def bystanders : List Visit :=
  [⟨.call (.acquire ⟨"task", "other", "other", .ofMillis 1000, ""⟩), 7, ""⟩, ⟨.purge, 1009999999, ""⟩]

theorem isHeld_predicts_last_nanosecond :
    (memory .new).IsOpened ∧ Instant.earliest.nanos ≤ 500000000 ∧
      (((memory .new).after sinceEpoch).applyAt 500000000 "" (.isHeld "job")).outcome =
        .ok ⟨true, ⟨510000000, by decide⟩⟩ ∧
      (∀ v ∈ bystanders, v.Spares "job" ((memory .new).reads 1009999999)) ∧
      (((memory .new).after (sinceEpoch ++ bystanders)).applyAt 1009999999 ""
        (.acquire (jobFor "second" (.ofMillis 1000)))).outcome = .ok .contended ∧
      ∃ validUntil, (((memory .new).after (sinceEpoch ++ bystanders)).applyAt 1010000000 ""
        (.acquire (jobFor "second" (.ofMillis 1000)))).outcome = .ok (.granted validUntil) := by
  have hnow : Instant.earliest.nanos ≤ 500000000 := by decide
  have hreported : (((memory .new).after sinceEpoch).applyAt 500000000 "" (.isHeld "job")).outcome =
      .ok ⟨true, ⟨510000000, by decide⟩⟩ := by decide +kernel
  have hspares (u : Int) (hu : 1009999999 ≤ u) :
      ∀ v ∈ bystanders, v.Spares "job" ((memory .new).reads u) := by
    simp [bystanders, Visit.Spares, Call.key?, reads_memory, hu]
  have hpredicts := (isHeld_predicts (b := memory .new) rfl sinceEpoch hnow hreported).2.2 bystanders
  refine ⟨rfl, hnow, hreported, hspares _ (by decide), ?_, ?_⟩
  · exact (hpredicts 1009999999 "" (jobFor "second" (.ofMillis 1000)) rfl (by decide) (by decide)
      (hspares 1009999999 (by decide))).1 (by decide)
  · exact (hpredicts 1010000000 "" (jobFor "second" (.ofMillis 1000)) rfl (by decide) (by decide)
      (hspares 1010000000 (by decide))).2 (by decide)

/-- An attempt with an endless time to live is not told that a held key is taken, and does not get a
free one. -/
theorem not_predicted_beyond_calendar :
    let endless := jobFor "second" (.ofSeconds 9223372036854776)
    (((memory .new).after sinceEpoch).applyAt 0 "" (.isHeld "job")).outcome =
        .ok ⟨true, ⟨1010000000, by decide⟩⟩ ∧
      (((memory .new).after sinceEpoch).applyAt 0 "" (.acquire endless)).outcome ≠ .ok .contended ∧
      ((memory .new).applyAt 0 "" (.isHeld "job")).outcome = .ok .free ∧
      ∀ validUntil, ((memory .new).applyAt 0 "" (.acquire endless)).outcome ≠
        .ok (.granted validUntil) := by
  refine ⟨by decide +kernel, by decide, by decide, ?_⟩
  intro validUntil hgranted
  have hfailed : ((memory .new).applyAt 0 ""
      (.acquire (jobFor "second" (.ofSeconds 9223372036854776)))).outcome = .failed (.backend
        (.described "Source duration value is out of range for the target type")) := by decide
  cases hfailed.symm.trans hgranted

end Backing

end LeaseLock
