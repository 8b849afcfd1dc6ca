import LeaseLock.Proofs.Store.Database

/-!
What a failed call leaves behind in a database. A grant or a renewal writes its row before the end of
the lease is read back, so one that lasts beyond the calendar fails with its row in place; every
other failure leaves the database as it was.
-/

namespace LeaseLock.Sql.Store

variable {s : Store} {now : Int}

theorem outcome_ne_failed_of_instant {α : Type} {ms : Int} {f : Instant → α} {fault : Fault}
    (hlow : 0 ≤ ms) (hhigh : ms * nanosPerMilli ≤ Instant.latest.nanos) :
    (instant ms).map f ≠ .failed fault := by
  have hearliest := Instant.nanos_earliest
  have hbegin : Instant.earliest.nanos ≤ ms * nanosPerMilli := by
    rw [hearliest, nanosPerMilli]
    omega
  obtain ⟨v, hv⟩ := instant_of_range hbegin hhigh
  rw [hv]
  exact fun hfailed => by cases hfailed

theorem term_nonneg (ttl : Span) : 0 ≤ Tenure.term nanosPerMilli ttl := by
  simp only [Tenure.term, floorTo, nanosPerMilli]
  omega

theorem acquire_failed (hnow : 0 ≤ now) {claim : Claim} {fault : Fault}
    (h : (s.acquire now claim).outcome = .failed fault) :
    (s.acquire now claim).state = s ∨
      (Instant.latest.nanos < now * nanosPerMilli + Tenure.term nanosPerMilli claim.ttl ∧
        (s.acquire now claim).state.tenure? claim.key =
          some (.granted nanosPerMilli (now * nanosPerMilli) claim)) := by
  obtain ⟨t, span, htable, hspan, -, houtcome, hstate⟩ | ⟨-, hsame⟩ := acquire_cases s now claim
  · right
    constructor
    · apply Int.lt_of_not_ge
      intro hfits
      have hterm := term_nonneg claim.ttl
      rw [← hspan] at hterm hfits
      simp only [nanosPerMilli] at hterm
      rw [← Int.add_mul] at hfits
      exact outcome_ne_failed_of_instant (by omega) hfits (houtcome.symm.trans h)
    · rw [hstate, tenure?_of_table (table_withTable htable _), Keyed.find?_insert_self]
      simp only [Option.map_some, Row.tenure, Int.add_mul, hspan, Tenure.granted]
  · exact .inl hsame

theorem renew_failed (hnow : 0 ≤ now) {key leaseId nonce newNonce : String} {ttl : Span}
    {fault : Fault} (h : (s.renew now key leaseId nonce ttl newNonce).outcome = .failed fault) :
    (s.renew now key leaseId nonce ttl newNonce).state = s ∨
      ∃ old, s.tenure? key = some old ∧ old.IsOwnedBy leaseId nonce ∧
        Instant.latest.nanos <
          max old.validUntil (now * nanosPerMilli + Tenure.term nanosPerMilli ttl) ∧
        (s.renew now key leaseId nonce ttl newNonce).state.tenure? key =
          some (old.renewed nanosPerMilli (now * nanosPerMilli) newNonce ttl) := by
  obtain ⟨t, row, span, htable, hspan, hfind, howned, -, houtcome, hstate⟩ | ⟨-, hsame⟩ :=
    renew_cases s now key leaseId nonce ttl newNonce
  · right
    refine ⟨row.tenure, ?_, howned, ?_, ?_⟩
    · rw [tenure?_of_table htable, hfind]
      rfl
    · apply Int.lt_of_not_ge
      intro hfits
      have hterm := term_nonneg ttl
      have hend : max row.tenure.validUntil (now * nanosPerMilli + Tenure.term nanosPerMilli ttl) =
          max row.validUntil (now + span) * nanosPerMilli := (max_mul_nanosPerMilli hspan).symm
      rw [← hspan] at hterm
      rw [hend] at hfits
      simp only [nanosPerMilli] at hterm
      exact outcome_ne_failed_of_instant (by omega) hfits (houtcome.symm.trans h)
    · rw [hstate, tenure?_of_table (table_withTable htable _), Keyed.find?_insert_self]
      simp only [Option.map_some, Row.tenure, max_mul_nanosPerMilli hspan, Tenure.renewed]
  · exact .inl hsame

/-- A grant or a renewal that fails on a clock after the epoch has changed nothing, or the lease is
there all the same and lasts beyond the calendar. -/
theorem failed_unchanged_or_beyond (s : Store) (hnow : 0 ≤ now) :
    (∀ claim fault, (s.acquire now claim).outcome = .failed fault →
      (s.acquire now claim).state = s ∨
        (Instant.latest.nanos < now * nanosPerMilli + Tenure.term nanosPerMilli claim.ttl ∧
          (s.acquire now claim).state.tenure? claim.key =
            some (.granted nanosPerMilli (now * nanosPerMilli) claim))) ∧
      ∀ key leaseId nonce ttl newNonce fault,
        (s.renew now key leaseId nonce ttl newNonce).outcome = .failed fault →
        (s.renew now key leaseId nonce ttl newNonce).state = s ∨
          ∃ old, s.tenure? key = some old ∧ old.IsOwnedBy leaseId nonce ∧
            Instant.latest.nanos <
              max old.validUntil (now * nanosPerMilli + Tenure.term nanosPerMilli ttl) ∧
            (s.renew now key leaseId nonce ttl newNonce).state.tenure? key =
              some (old.renewed nanosPerMilli (now * nanosPerMilli) newNonce ttl) :=
  ⟨fun _ _ h => acquire_failed hnow h, fun _ _ _ _ _ _ h => renew_failed hnow h⟩

theorem failed_unchanged_or_beyond_too_long :
    ∃ store events, Store.new .sqlite .standard (.open ⟨"locker_locks", some .empty⟩) =
      .ok (store, events) ∧
      (store.acquire 1700000000000 ⟨"job", "first", "n1", .ofSeconds 9223372036854776, ""⟩).outcome =
        .failed databaseFault ∧
      (store.acquire 1700000000000 ⟨"job", "first", "n1", .ofSeconds 9223372036854776, ""⟩).state =
        store := by
  have hnow : (0 : Int) ≤ 1700000000000 := by decide
  refine ⟨_, _, rfl, rfl, ?_⟩
  refine Or.resolve_right ((failed_unchanged_or_beyond _ hnow).1 _ databaseFault (by rfl)) ?_
  rintro ⟨-, hwritten⟩
  cases hwritten

def granted (s : Store) : Store :=
  (s.acquire 1700000000000 ⟨"job", "first", "n1", .ofSeconds 10, ""⟩).state

/-- The key is taken by a grant that fails, and a renewal that fails replaces the nonce. -/
theorem lease_behind_failure :
    ∃ store events, Store.new .sqlite .standard (.open ⟨"locker_locks", some .empty⟩) =
      .ok (store, events) ∧
      (store.acquire 1700000000000 ⟨"job", "first", "n1", .ofSeconds 8210266876800, ""⟩).outcome =
        .failed (.backend
          (.described "Custom Error: stored timestamp out of range: 8211966876800010")) ∧
      (store.acquire 1700000000000 ⟨"job", "first", "n1", .ofSeconds 8210266876800, ""⟩).state ≠
        store ∧
      (store.granted.renew 1700000000000 "job" "first" "n1" (.ofSeconds 8210266876800) "n2").outcome =
        .failed (.backend
          (.described "Custom Error: stored timestamp out of range: 8211966876800010")) ∧
      (store.granted.tenure? "job").map Tenure.nonce = some "n1" ∧
      ((store.granted.renew 1700000000000 "job" "first" "n1" (.ofSeconds 8210266876800)
        "n2").state.tenure? "job").map Tenure.nonce = some "n2" := by
  refine ⟨_, _, rfl, ?_⟩
  decide +kernel

end LeaseLock.Sql.Store
