namespace LeaseLock

inductive Counter
  | attempts
  | acquired
  | contended
  | failed
  | released
  | renewed
  | mismatched
  deriving DecidableEq, Repr

namespace Counter

def all : List Counter :=
  [.attempts, .acquired, .contended, .failed, .released, .renewed, .mismatched]

def name : Counter → String
  | .attempts => "leasehold_acquire_attempts_total"
  | .acquired => "leasehold_acquire_success_total"
  | .contended => "leasehold_acquire_contention_total"
  | .failed => "leasehold_acquire_failed_total"
  | .released => "leasehold_release_total"
  | .renewed => "leasehold_refresh_total"
  | .mismatched => "leasehold_ownership_mismatch_total"

def description : Counter → String
  | .attempts => "Total number of try-acquire round-trips issued to the store"
  | .acquired => "Total number of granted locks"
  | .contended => "Total number of attempts that found the key already held"
  | .failed => "Total number of acquisitions that exhausted their retries or hit an error"
  | .released => "Total number of successful releases"
  | .renewed => "Total number of successful refreshes"
  | .mismatched => "Total number of release/refresh calls rejected by the identity check"

end Counter

namespace AcquireDuration

def name : String := "leasehold_acquire_duration_seconds"

def description : String := "Wall time of acquire calls in seconds, retries included"

end AcquireDuration

inductive MetricKind
  | counter
  | histogram
  deriving DecidableEq, Repr

def MetricKind.name : MetricKind → String
  | .counter => "counter"
  | .histogram => "histogram"

structure Metric where
  name : String
  kind : MetricKind
  description : String
  deriving DecidableEq, Repr

def Metric.all : List Metric :=
  ⟨AcquireDuration.name, .histogram, AcquireDuration.description⟩ ::
    Counter.all.map fun c => ⟨c.name, .counter, c.description⟩

end LeaseLock
