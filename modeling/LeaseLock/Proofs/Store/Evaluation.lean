import LeaseLock.Proofs.Store.Counts
import LeaseLock.Proofs.Store.Run
import LeaseLock.Proofs.Time.Shift

namespace LeaseLock

namespace Lease

variable {l : Lease}

/-- The renewal margin and its beginning are exact, and no reading of the clock is too far from the
end of the lease. -/
structure EvaluatesTo (l : Lease) (margin : Span) (limit : Instant) : Prop where
  margin_eq : safetyMargin? l.ttl = some margin
  nanos_margin : (margin.nanos : Int) = l.ttl.millis * marginPercent / 100 * nanosPerMilli
  shift_margin : shift? margin = some margin
  limit_eq : l.validUntil.sub? margin = some limit
  renewable (now : Instant) : l.isRenewableAt? now = some (decide (now < limit))
  remaining (now : Instant) : (l.validUntil.nanosSince now).natAbs ≤ maxShiftMillis * nanosPerMilli

def IsEvaluable (l : Lease) : Prop := ∃ margin limit, l.EvaluatesTo margin limit

def IsCovered (l : Lease) : Prop := Instant.earliest.nanos + l.ttl.nanos ≤ l.validUntil.nanos

theorem IsCovered.millis_lt (h : l.IsCovered) : l.ttl.millis * marginPercent < UInt64.size := by
  have hend := l.validUntil.nanos_le
  have hearliest := Instant.nanos_earliest
  have hlatest := Instant.nanos_latest
  simp only [IsCovered] at h
  simp only [Span.millis, marginPercent, nanosPerMilli, nanosPerSecond, UInt64.size] at *
  omega

theorem IsCovered.isEvaluable (h : l.IsCovered) : l.IsEvaluable := by
  obtain ⟨margin, hmargin, hnanos, hshift, huntil⟩ := exists_margin h.millis_lt
  have hle : margin.nanos ≤ l.ttl.nanos := by
    simp only [Span.millis, marginPercent, nanosPerMilli] at hnanos
    omega
  obtain ⟨limit, hlimit⟩ : ∃ limit, l.validUntil.sub? margin = some limit := by
    refine Option.isSome_iff_exists.mp (Instant.sub?_isSome_of_earliest_add_le ?_)
    simp only [IsCovered] at h
    omega
  refine ⟨margin, limit, hmargin, hnanos, hshift, hlimit, ?_, l.validUntil.natAbs_nanosSince_le⟩
  intro now
  rw [isRenewableAt?, huntil, hlimit, Option.map_some]

end Lease

namespace Registry

variable {r : Registry}

structure Moment where
  service : Service
  clock : Option Instant
  newNonce : String

def serve (r : Registry) (m : Moment) : Registry :=
  match m.service, m.clock with
  | .call call, clock => (r.apply clock m.newNonce call).state
  | .purge, some now => (r.purge now).2
  | .purge, none => r

def served (r : Registry) (moments : List Moment) : Registry := moments.foldl serve r

theorem earliest_add_le_of_expiry {now granted validUntil : Instant} {ttl : Span}
    (h : expiry now ttl = .ok granted) (hle : granted ≤ validUntil) :
    Instant.earliest.nanos + ttl.nanos ≤ validUntil.nanos := by
  obtain ⟨span, hsum, hadd⟩ := add?_of_expiry h
  have hcovers := Instant.earliest_add_le hadd hle
  omega

theorem covered_apply (h : r.leases.All Lease.IsCovered) (clock : Option Instant)
    (newNonce : String) (call : Call) :
    (r.apply clock newNonce call).state.leases.All Lease.IsCovered := by
  cases call with
  | acquire claim =>
    obtain ⟨now, validUntil, -, -, hexpiry, -, -, -, hleases⟩ | ⟨-, -, hsame⟩ :=
      acquire_cases r clock claim
    · simp only [apply, hleases]
      exact h.insert claim.key (earliest_add_le_of_expiry hexpiry (Instant.le_refl validUntil))
    · simp only [apply, hsame]
      exact h
  | release key leaseId nonce =>
    obtain ⟨-, -, -, -, -, -, hleases⟩ | ⟨-, -, hsame⟩ := release_cases r key leaseId nonce
    · simp only [apply, hleases]
      exact h.erase key
    · simp only [apply, hsame]
      exact h
  | renew key leaseId nonce ttl =>
    obtain ⟨now, lease, granted, -, -, -, -, -, hexpiry, -, -, hleases⟩ | ⟨-, hsame⟩ :=
      renew_cases r clock key leaseId nonce ttl newNonce
    -- The earlier end may be the later one, but then it covers the new time to live all the more.
    · simp only [apply, hleases]
      exact h.insert key (earliest_add_le_of_expiry hexpiry (Instant.le_max_left granted _))
    · simp only [apply, hsame]
      exact h
  | isHeld key => exact h
  | probe => exact h
  | close =>
    simp only [apply, close]
    split
    · exact h
    · exact Keyed.all_empty _

theorem covered_serve (h : r.leases.All Lease.IsCovered) (m : Moment) :
    (r.serve m).leases.All Lease.IsCovered := by
  unfold serve
  split
  · exact covered_apply h _ _ _
  · exact h.filter _
  · exact h

theorem covered_served (h : r.leases.All Lease.IsCovered) (moments : List Moment) :
    (r.served moments).leases.All Lease.IsCovered := by
  induction moments generalizing r with
  | nil => exact h
  | cons m rest ih => exact ih (covered_serve h m)

theorem apply_of_not_ok {clock : Option Instant} {newNonce : String} {call : Call}
    (h : ∀ answer, (r.apply clock newNonce call).outcome ≠ .ok answer) :
    (r.apply clock newNonce call).state = r := by
  cases call with
  | acquire claim =>
    simp only [apply] at h ⊢
    obtain ⟨_, _, -, heq⟩ | ⟨_, _, _, -, heq⟩ | heq | ⟨_, heq⟩ | heq :=
      acquire_entry r clock claim <;> rw [heq] at h ⊢
    all_goals exact absurd rfl (h _)
  | release key leaseId nonce =>
    simp only [apply] at h ⊢
    obtain ⟨_, -, heq⟩ | heq | heq := release_entry r key leaseId nonce <;> rw [heq] at h ⊢
    all_goals exact absurd rfl (h _)
  | renew key leaseId nonce ttl =>
    simp only [apply] at h ⊢
    obtain ⟨_, _, _, -, heq⟩ | ⟨-, hsame⟩ := renew_entry r clock key leaseId nonce ttl newNonce
    · rw [heq] at h
      exact absurd rfl (h _)
    · exact hsame
  | isHeld key => rfl
  | probe => rfl
  | close => exact absurd rfl (h ())

theorem leases_evaluable (moments : List Moment) :
    (new.served moments).leases.All Lease.IsEvaluable ∧
      ∀ (clock : Option Instant) (newNonce : String) (call : Call),
        (∀ answer, ((new.served moments).apply clock newNonce call).outcome ≠ .ok answer) →
          ((new.served moments).apply clock newNonce call).state = new.served moments := by
  constructor
  · exact (covered_served (Keyed.all_empty _) moments).mono fun _ => Lease.IsCovered.isEvaluable
  · intro clock newNonce call
    exact apply_of_not_ok

def wholeCalendar : Moment where
  service := .call (.acquire ⟨"job", "first", "n1", ⟨16544868105599989999999, by decide⟩, ""⟩)
  clock := some .earliest
  newNonce := "n2"

def longerRenewal : Call := .renew "job" "first" "n1" .longest

theorem leases_evaluable_whole_calendar :
    (new.served [wholeCalendar]).leases.entries.map (·.2.validUntil) = [.latest] ∧
      (new.served [wholeCalendar]).leases.All Lease.IsEvaluable ∧
      ((new.served [wholeCalendar]).apply (some .epoch) "n2" longerRenewal).outcome = .overflow ∧
      ((new.served [wholeCalendar]).apply (some .epoch) "n2" longerRenewal).state =
        new.served [wholeCalendar] := by
  have houtcome : ((new.served [wholeCalendar]).apply (some .epoch) "n2" longerRenewal).outcome =
      .overflow := rfl
  obtain ⟨hleases, hfailed⟩ := leases_evaluable [wholeCalendar]
  refine ⟨by decide +kernel, hleases, houtcome, hfailed (some .epoch) "n2" longerRenewal ?_⟩
  simp [houtcome]

end Registry

end LeaseLock
