import LeaseLock.Lock.Limits

namespace LeaseLock

inductive HealthStatus
  | healthy
  | degraded
  | unavailable
  deriving DecidableEq, Repr

def HealthStatus.name : HealthStatus → String
  | .healthy => "healthy"
  | .degraded => "degraded"
  | .unavailable => "unavailable"

def HealthStatus.ofName? (name : String) : Option HealthStatus :=
  [HealthStatus.healthy, .degraded, .unavailable].find? fun s => s.name == name

structure HealthReport where
  status : HealthStatus
  latency : Span
  load : Binary64
  error : Option String
  deriving DecidableEq, Repr

def HealthReport.unavailable (latency : Span) (error : String) : HealthReport :=
  ⟨.unavailable, latency, 0, some error⟩

structure PoolUse where
  active : Nat
  limit : Option Nat
  deriving DecidableEq, Repr

namespace PoolUse

def none : PoolUse := ⟨0, Option.none⟩

def isSaturated (u : PoolUse) : Bool :=
  match u.limit with
  | some limit => 0 < limit && limit ≤ u.active
  | Option.none => false

def status (u : PoolUse) (latency : Span) : HealthStatus :=
  if degradedLatency ≤ latency || u.isSaturated then .degraded else .healthy

end PoolUse

end LeaseLock
