import LeaseLock.Proofs.Store.Database
import LeaseLock.Proofs.Store.Registry
import LeaseLock.Store.Backing

/-!
Runs of a store of either kind: visits one after the other, each at a reading of the store's clock.
The readings are arbitrary. What holds of both kinds is stated here once, with their clocks told
apart by their grain only.
-/

namespace LeaseLock

inductive Service
  | call (call : Call)
  | purge

structure Visit where
  service : Service
  reading : Int
  newNonce : String

namespace Backing

variable {b : Backing} {reading : Int} {newNonce key : String}

def purgeAt (b : Backing) (reading : Int) : Backing :=
  match b, Instant.ofNanos? reading with
  | .memory registry, some now => .memory (registry.purge now).2
  | _, _ => b

def visit (b : Backing) (v : Visit) : Backing :=
  match v.service with
  | .call call => (b.applyAt v.reading v.newNonce call).state
  | .purge => b.purgeAt v.reading

def after (b : Backing) (visits : List Visit) : Backing := visits.foldl visit b

theorem after_append (b : Backing) (first second : List Visit) :
    b.after (first ++ second) = (b.after first).after second := List.foldl_append

/-- A store as it is opened: one in memory is empty, a database may hold leases already. -/
def IsOpened : Backing → Prop
  | .memory registry => registry = .new
  | .sql _ => True

def IsClosed : Backing → Prop
  | .memory registry => registry.closed = true
  | .sql store => store.connection = .closed

def Sound : Backing → Prop
  | .memory registry => registry.Sound
  | .sql _ => True

def grain : Backing → Int
  | .memory _ => 1
  | .sql _ => nanosPerMilli

/-- A bound below which readings get no answers. -/
def firstReading : Backing → Int
  | .memory _ => Instant.earliest.nanos
  | .sql _ => 2 * Instant.earliest.nanos

def reads (b : Backing) (reading : Int) : Int := floorTo b.grain reading

def tenure? : Backing → String → Option Tenure
  | .memory registry, key => registry.tenure? key
  | .sql store, key => store.tenure? key

theorem IsOpened.sound (h : b.IsOpened) : b.Sound := by
  cases b with
  | memory registry =>
    cases h
    exact Registry.sound_new
  | sql store => trivial

theorem Sound.applyAt (h : b.Sound) (reading : Int) (newNonce : String) (call : Call) :
    (b.applyAt reading newNonce call).state.Sound := by
  cases b with
  | memory registry => exact Registry.Sound.apply h reading newNonce call
  | sql store => trivial

theorem Sound.purgeAt (h : b.Sound) (reading : Int) : (b.purgeAt reading).Sound := by
  unfold Backing.purgeAt
  split
  · exact Registry.Sound.purge h _
  · exact h

theorem Sound.visit (h : b.Sound) (v : Visit) : (b.visit v).Sound := by
  unfold Backing.visit
  split
  · exact h.applyAt _ _ _
  · exact h.purgeAt _

theorem Sound.after (h : b.Sound) (visits : List Visit) : (b.after visits).Sound := by
  induction visits generalizing b with
  | nil => exact h
  | cons v rest ih => exact ih (h.visit v)

theorem grain_pos (b : Backing) : 0 < b.grain := by
  cases b <;> simp [grain, nanosPerMilli]

theorem grain_applyAt (b : Backing) (reading : Int) (newNonce : String) (call : Call) :
    (b.applyAt reading newNonce call).state.grain = b.grain := by
  cases b <;> rfl

theorem grain_visit (b : Backing) (v : Visit) : (b.visit v).grain = b.grain := by
  unfold visit purgeAt
  split
  · exact grain_applyAt b _ _ _
  · split <;> rfl

theorem grain_after (b : Backing) (visits : List Visit) : (b.after visits).grain = b.grain := by
  induction visits generalizing b with
  | nil => rfl
  | cons v rest ih => exact (ih (b.visit v)).trans (grain_visit b v)

theorem firstReading_visit (b : Backing) (v : Visit) : (b.visit v).firstReading = b.firstReading := by
  unfold visit purgeAt
  split
  · cases b <;> rfl
  · split <;> rfl

theorem firstReading_after (b : Backing) (visits : List Visit) :
    (b.after visits).firstReading = b.firstReading := by
  induction visits generalizing b with
  | nil => rfl
  | cons v rest ih => exact (ih (b.visit v)).trans (firstReading_visit b v)

theorem term_of_whole (b : Backing) {ttl : Span} (httl : ttl.IsWholeTtl) :
    Tenure.term b.grain ttl = ttl.nanos + grantPadding.nanos := by
  obtain ⟨ms, hwhole, -, -⟩ := httl.range
  have hpadding := nanos_grantPadding
  cases b with
  | memory registry => exact Tenure.term_one ttl
  | sql store =>
    simp only [Tenure.term, floorTo, grain, hwhole, hpadding, nanosPerMilli]
    omega

def closedOutcome : (call : Call) → Outcome call.Answer
  | .close => .ok ()
  | .acquire _ | .release _ _ _ | .renew _ _ _ _ | .isHeld _ | .probe => .failed .closed

theorem closedOutcome_of_ne {call : Call} (h : call ≠ .close) : closedOutcome call = .failed .closed := by
  cases call with
  | close => exact absurd rfl h
  | _ => rfl

theorem IsClosed.applyAt_eq (h : b.IsClosed) (reading : Int) (newNonce : String) (call : Call) :
    b.applyAt reading newNonce call = ⟨closedOutcome call, b, []⟩ := by
  cases b with
  | memory registry =>
    have hclosed : registry.closed = true := h
    cases call <;>
      simp [Backing.applyAt, Registry.apply, Registry.acquire, Registry.release, Registry.renew,
        Registry.isHeld, Registry.probe, Registry.close, Registry.closeEvents, closedOutcome, hclosed]
  | sql store =>
    have hclosed : store.connection = .closed := h
    have htable : store.table = .failed .closed := by simp only [Sql.Store.table, hclosed]
    have hprepared (ttl : Span) : store.prepared ttl = .failed .closed := by
      simp only [Sql.Store.prepared, Sql.Store.checkOpen, hclosed, Outcome.failed_bind]
    cases call <;>
      simp [Backing.applyAt, Sql.Store.applyAt, Sql.Store.acquire, Sql.Store.release,
        Sql.Store.renew, Sql.Store.isHeld, Sql.Store.probe, Sql.Store.probeBetween, Sql.Store.close,
        closedOutcome, htable, hprepared, hclosed]

theorem IsClosed.visit (h : b.IsClosed) (v : Visit) : (b.visit v).IsClosed := by
  unfold Backing.visit
  split
  · rw [h.applyAt_eq]
    exact h
  · unfold purgeAt
    split
    · exact h
    · exact h

theorem isClosed_close (b : Backing) (reading : Int) (newNonce : String) :
    (b.applyAt reading newNonce .close).state.IsClosed := by
  cases b with
  | memory registry =>
    cases hclosed : registry.closed <;>
      simp [applyAt, IsClosed, Registry.apply, Registry.close, hclosed]
  | sql store =>
    cases hconnection : store.connection <;>
      simp [applyAt, IsClosed, Sql.Store.applyAt, Sql.Store.close, hconnection]

theorem reads_le (b : Backing) (reading : Int) : b.reads reading ≤ reading := by
  cases b <;> simp only [reads, grain, floorTo, nanosPerMilli] <;> omega

theorem reads_memory (registry : Registry) (reading : Int) :
    (memory registry).reads reading = reading := by
  simp only [reads, grain, floorTo, Int.ediv_one, Int.mul_one]

theorem change (h : b.Sound) (reading : Int) (newNonce key : String) (call : Call) :
    Change b.grain (b.reads reading) newNonce key call (b.tenure? key)
      ((b.applyAt reading newNonce call).state.tenure? key) := by
  cases b with
  | memory registry =>
    rw [reads_memory]
    exact Registry.change h reading newNonce key call
  | sql store => exact Sql.Store.change store (reading / nanosPerMilli) newNonce key call

theorem tenure?_purgeAt (h : b.Sound) (reading : Int) (key : String) :
    (b.purgeAt reading).tenure? key = b.tenure? key ∨
      ∃ old, b.tenure? key = some old ∧ old.validUntil ≤ b.reads reading ∧
        (b.purgeAt reading).tenure? key = none := by
  unfold purgeAt
  split
  · rename_i registry now hnow
    have hn := Instant.ordinary_of_ofNanos? hnow
    simp only [tenure?, Registry.tenure?, Registry.purge, Keyed.find?_filter h.distinct]
    cases hfind : registry.leases.find? key with
    | none => exact .inl rfl
    | some lease =>
      have hexpired := Lease.isExpiredAt_iff (h.ordinary key lease hfind) hn
      rw [Instant.nanos_of_ofNanos? hnow] at hexpired
      cases hlease : lease.isExpiredAt now with
      | false => exact .inl (by simp [Option.filter, hlease])
      | true =>
        refine .inr ⟨lease.tenure, rfl, ?_, by simp [Option.filter, hlease]⟩
        rw [reads_memory]
        exact hexpired.mp hlease
  · exact .inl rfl

theorem tenure?_of_purgeAt (h : b.Sound) {t : Tenure} (ht : (b.purgeAt reading).tenure? key = some t) :
    b.tenure? key = some t := by
  obtain hsame | ⟨_, _, _, hgone⟩ := tenure?_purgeAt h reading key
  · exact hsame.symm.trans ht
  · cases hgone.symm.trans ht

theorem acquire_granted (h : b.Sound) {claim : Claim} {validUntil : Instant}
    (hgranted : (b.applyAt reading newNonce (.acquire claim)).outcome = .ok (.granted validUntil)) :
    (∀ old ∈ b.tenure? claim.key, old.validUntil ≤ b.reads reading) ∧
      (b.applyAt reading newNonce (.acquire claim)).state.tenure? claim.key =
        some (.granted b.grain (b.reads reading) claim) ∧
      validUntil.IsOrdinary ∧
      validUntil.nanos = b.reads reading + Tenure.term b.grain claim.ttl := by
  cases b with
  | memory registry =>
    rw [reads_memory]
    exact Registry.acquire_granted h hgranted
  | sql store => exact Sql.Store.acquire_granted hgranted

theorem renew_renewed (h : b.Sound) {leaseId nonce : String} {ttl : Span} {renewal : Renewal}
    (hrenewed : (b.applyAt reading newNonce (.renew key leaseId nonce ttl)).outcome =
      .ok (some renewal)) :
    ∃ old, b.tenure? key = some old ∧ old.IsOwnedBy leaseId nonce ∧ renewal.nonce = newNonce ∧
      renewal.validUntil.nanos = (old.renewed b.grain (b.reads reading) newNonce ttl).validUntil ∧
      (b.applyAt reading newNonce (.renew key leaseId nonce ttl)).state.tenure? key =
        some (old.renewed b.grain (b.reads reading) newNonce ttl) := by
  cases b with
  | memory registry =>
    rw [reads_memory]
    exact Registry.renew_renewed h hrenewed
  | sql store => exact Sql.Store.renew_renewed hrenewed

theorem firstReading_le_of_granted (h : b.Sound) {claim : Claim} {validUntil : Instant}
    (httl : claim.ttl.IsWholeTtl)
    (hgranted : (b.applyAt reading newNonce (.acquire claim)).outcome = .ok (.granted validUntil)) :
    b.firstReading ≤ reading := by
  have hearliest := Instant.nanos_earliest
  have hlatest := Instant.nanos_latest
  cases b with
  | memory registry =>
    obtain ⟨now, _, hnow, _⟩ | ⟨hnot, _⟩ :=
      Registry.acquire_cases registry (Instant.ofNanos? reading) claim
    · exact (Instant.ofNanos?_isSome_iff.mp (Option.isSome_of_eq_some hnow)).1
    · exact absurd hgranted (hnot validUntil)
  | sql store =>
    obtain ⟨ms, hwhole, -, hmax⟩ := httl.range
    have hlimit := millis_maxTtl
    have hpadding := nanos_grantPadding
    have hend := (Sql.Store.acquire_granted hgranted).2.2.2
    have hrange := validUntil.inRange
    simp only [Instant.nanos, Tenure.term, floorTo, hwhole, hpadding, nanosPerMilli,
      nanosPerSecond] at hend
    simp only [firstReading, hearliest]
    omega

theorem acquire_contended (h : b.Sound) {claim : Claim} {old : Tenure}
    (hold : b.tenure? claim.key = some old) (hlt : b.reads reading < old.validUntil)
    (hlow : b.firstReading ≤ reading) (hfits : Fits reading claim.ttl) :
    (b.applyAt reading newNonce (.acquire claim)).outcome = .ok .contended := by
  cases b with
  | memory registry =>
    rw [reads_memory] at hlt
    exact Registry.acquire_contended h hold hlt hlow hfits
  | sql store => exact Sql.Store.acquire_contended hold hlt hlow hfits

theorem renew_of_lt (h : b.Sound) {leaseId nonce : String} {ttl : Span} {old : Tenure}
    (hold : b.tenure? key = some old) (howned : old.IsOwnedBy leaseId nonce)
    (hregular : old.IsRegular) (hearly : b.reads reading < old.validUntil - old.margin)
    (hlow : b.firstReading ≤ reading) (hfits : Fits reading ttl) :
    ∃ validUntil, (b.applyAt reading newNonce (.renew key leaseId nonce ttl)).outcome =
      .ok (some ⟨validUntil, newNonce⟩) := by
  cases b with
  | memory registry =>
    rw [reads_memory] at hearly
    exact Registry.renew_of_lt h hold howned hregular hearly hlow hfits
  | sql store => exact Sql.Store.renew_of_lt hold howned hregular hearly hlow hfits

theorem isHeld_of_lt (h : b.Sound) {old : Tenure} (hold : b.tenure? key = some old)
    (hregular : old.IsRegular) (hlow : b.firstReading ≤ reading) (hlt : b.reads reading < old.validUntil) :
    ∃ remaining, (b.applyAt reading newNonce (.isHeld key)).outcome = .ok ⟨true, remaining⟩ := by
  cases b with
  | memory registry =>
    rw [reads_memory] at hlt
    exact Registry.isHeld_of_lt h hold hregular hlow hlt
  | sql store => exact Sql.Store.isHeld_of_lt hold hregular hlow hlt

end Backing

end LeaseLock
