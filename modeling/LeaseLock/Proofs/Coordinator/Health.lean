import LeaseLock.Proofs.Coordinator.Retry
import LeaseLock.Sql.Store

namespace LeaseLock

namespace Sql.Store

variable {s : Store} {after : PoolReading}

theorem probeBetween_of_open {database : Database} (h : s.connection = .open database)
    (before after : PoolReading) :
    s.probeBetween before after = .ok (poolUse before.use after.use) := by
  rw [probeBetween, h]

-- the probe's own connection is among those of the second reading, so the rest are fewer than all
theorem active_poolUse_lt (before : PoolReading) (hlimit : 1 ≤ after.limit)
    (hsize : after.size ≤ after.limit) :
    (poolUse before.use after.use).active < after.limit := by
  simp only [poolUse, PoolReading.use]
  omega

theorem isSaturated_poolUse (before : PoolReading) (hlimit : 1 ≤ after.limit)
    (hsize : after.size ≤ after.limit) : (poolUse before.use after.use).isSaturated = false := by
  have hactive := active_poolUse_lt before hlimit hsize
  have hall : decide (after.limit ≤ (poolUse before.use after.use).active) = false :=
    decide_eq_false (Nat.not_le_of_lt hactive)
  change (decide (0 < after.limit) && decide _) = false
  rw [hall, Bool.and_false]

end Sql.Store

namespace Coordinator

variable {c : ReplySequence} {use : PoolUse}

def probeTime (c : ReplySequence) : Span := Span.clamp (c.ticks 3 - c.ticks 1).toNat

theorem plays_describeProbe (log : List Effect) (latency : Span) (use : PoolUse) :
    c.Plays log (describeProbe latency use) []
      ⟨use.status latency, latency, .ofNat use.active, none⟩ := by
  rw [describeProbe]
  by_cases hdegraded : use.status latency = .degraded
  · rw [if_pos hdegraded]
    exact Acquisition.plays_report fun log => ReplySequence.plays_pure _
  · rw [if_neg hdegraded]
    exact ReplySequence.plays_pure _

theorem plays_health (hreply : c.reply 0 .probe = .answered (.ok use)) :
    c.Plays [] health [.call (some healthCallLimit) .probe]
      (.ok ⟨use.status (probeTime c), probeTime c, .ofNat use.active, none⟩) := by
  have hreport (log : List Effect) : c.Plays log
      (describeProbe (probeTime c) use >>= fun report => pure (Outcome.ok report)) []
      (.ok ⟨use.status (probeTime c), probeTime c, .ofNat use.active, none⟩) :=
    (plays_describeProbe log (probeTime c) use).bind fun _ _ => ReplySequence.plays_pure _
  rw [health]
  apply ReplySequence.plays_quiet rfl
  apply ReplySequence.plays_quiet rfl
  apply ReplySequence.plays_deed rfl
  have hrespond : c.respond ([] ++ [.isClosed] ++ [.readClock])
      (.call (some healthCallLimit) .probe) = .answered (.ok use) := hreply
  rw [hrespond]
  apply ReplySequence.plays_quiet rfl
  exact hreport _

/-- A probe never reports all connections of a pool in use, and a health check whose probe succeeds
goes by the time that the probe took alone. -/
theorem health_of_pool {s : Sql.Store} {database : Sql.Database} {before after : Sql.Store.PoolReading}
    (c : ReplySequence) (hopen : s.connection = .open database)
    (hreply : c.reply 0 .probe = .answered (s.probeBetween before after)) (hlimit : 1 ≤ after.limit)
    (hsize : after.size ≤ after.limit) :
    ∃ active, active = min (before.size - before.idle) (after.size - after.idle - 1) ∧
      active < after.limit ∧
      s.probeBetween before after = .ok ⟨active, some after.limit⟩ ∧
      PoolUse.isSaturated ⟨active, some after.limit⟩ = false ∧
      (c.play [] health).1.filter Effect.isDeed = [.call (some healthCallLimit) .probe] ∧
      (c.play [] health).2 =
        .ok ⟨if degradedLatency ≤ probeTime c then .degraded else .healthy, probeTime c,
          .ofNat active, none⟩ := by
  have hprobe := Sql.Store.probeBetween_of_open hopen before after
  have hfree := Sql.Store.isSaturated_poolUse before hlimit hsize
  rw [hprobe] at hreply
  obtain ⟨log, hplay, hdeeds⟩ := (plays_health hreply).exists_log
  refine ⟨_, rfl, Sql.Store.active_poolUse_lt before hlimit hsize, hprobe, hfree, ?_, ?_⟩
  · rw [hplay]
    exact hdeeds
  · rw [hplay, PoolUse.status, hfree, Bool.or_false]
    simp only [decide_eq_true_eq]
    rfl

def poolCourse (s : Sql.Store) (before after : Sql.Store.PoolReading) : ReplySequence where
  id _ := ""
  reply
    | _, .probe => .answered (s.probeBetween before after)
    | _, _ => .timedOut
  word _ := 0
  ticks _ := 0

theorem health_of_pool_with_room :
    ∃ store events, Sql.Store.new .sqlite .standard .fresh = .ok (store, events) ∧
      ((poolCourse store ⟨10, 3, 10⟩ ⟨10, 2, 10⟩).play [] health).2 =
        .ok ⟨.healthy, .zero, .ofNat 7, none⟩ := by
  obtain ⟨store, events, hnew⟩ : ∃ store events,
      Sql.Store.new .sqlite .standard .fresh = .ok (store, events) := ⟨_, _, rfl⟩
  have hopen : store.connection = .open ⟨"", none⟩ := by
    cases hnew
    rfl
  refine ⟨store, events, hnew, ?_⟩
  obtain ⟨active, hactive, -, -, -, -, hhealth⟩ :=
    health_of_pool (poolCourse store ⟨10, 3, 10⟩ ⟨10, 2, 10⟩) hopen rfl (by decide) (by decide)
  rw [hhealth, hactive]
  rfl

/-- No connection of the pool is free, before the probe and after it, and the check is passed. -/
theorem full_pool_healthy :
    ∃ store events, Sql.Store.new .sqlite .standard .fresh = .ok (store, events) ∧
      store.probeBetween ⟨10, 0, 10⟩ ⟨10, 0, 10⟩ = .ok ⟨9, some 10⟩ ∧
      PoolUse.isSaturated ⟨9, some 10⟩ = false ∧
      probeTime (poolCourse store ⟨10, 0, 10⟩ ⟨10, 0, 10⟩) < degradedLatency ∧
      ((poolCourse store ⟨10, 0, 10⟩ ⟨10, 0, 10⟩).play [] health).2.map HealthReport.status =
        .ok .healthy := by
  refine ⟨_, _, rfl, ?_⟩
  decide +kernel

end Coordinator

end LeaseLock
