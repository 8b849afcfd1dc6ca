import LeaseLock.Json.Printer
import LeaseLock.Json.Record
import LeaseLock.Lock.Health
import LeaseLock.Lock.Lease
import LeaseLock.Lock.Terms
import LeaseLock.Time.InstantText

namespace LeaseLock

namespace Span

def toJson (s : Span) : Json :=
  .record [("secs", .ofNat s.seconds), ("nanos", .ofNat s.fraction)]

/-- Nanoseconds of a second and more carry over into the seconds. -/
def ofJson? (json : Json) : Option Span := do
  let r ← JsonRecord.ofJson? ["secs", "nanos"] true json
  let secs ← r.require? "secs" (Json.toNatBelow? UInt64.size)
  let nanos ← r.require? "nanos" (Json.toNatBelow? UInt32.size)
  ofNanos? (secs * nanosPerSecond + nanos)

end Span

namespace Instant

def toJson (t : Instant) : Json := .ofString t.text

def ofJson? (json : Json) : Option Instant := json.toText?.bind ofText?

end Instant

namespace Token

def toJson (t : Token) : Json :=
  .record [("key", .ofString t.key), ("leaseId", .ofString t.leaseId),
    ("validUntil", t.validUntil.toJson), ("serverNonce", .ofString t.nonce)]

def ofJson? (json : Json) : Option Token := do
  let r ← JsonRecord.ofJson? ["key", "leaseId", "validUntil", "serverNonce"] false json
  return {
    key := ← r.require? "key" Json.toText?
    leaseId := ← r.require? "leaseId" Json.toText?
    validUntil := ← r.require? "validUntil" Instant.ofJson?
    nonce := ← r.require? "serverNonce" Json.toText? }

def text (t : Token) : String := t.toJson.text

def ofText? (text : String) : Option Token := (Json.ofText? text).bind ofJson?

end Token

namespace Lease

def toJson (l : Lease) : Json :=
  .record [("key", .ofString l.key), ("leaseId", .ofString l.leaseId),
    ("serverNonce", .ofString l.nonce), ("validUntil", l.validUntil.toJson), ("ttl", l.ttl.toJson),
    ("metadata", .ofString l.metadata), ("createdAt", l.createdAt.toJson),
    ("updatedAt", l.updatedAt.toJson)]

def ofJson? (json : Json) : Option Lease := do
  let r ← JsonRecord.ofJson? ["key", "leaseId", "serverNonce", "validUntil", "ttl", "metadata",
    "createdAt", "updatedAt"] false json
  return {
    key := ← r.require? "key" Json.toText?
    leaseId := ← r.require? "leaseId" Json.toText?
    nonce := ← r.require? "serverNonce" Json.toText?
    validUntil := ← r.require? "validUntil" Instant.ofJson?
    ttl := ← r.require? "ttl" Span.ofJson?
    metadata := ← r.require? "metadata" Json.toText?
    createdAt := ← r.require? "createdAt" Instant.ofJson?
    updatedAt := ← r.require? "updatedAt" Instant.ofJson? }

def text (l : Lease) : String := l.toJson.text

def ofText? (text : String) : Option Lease := (Json.ofText? text).bind ofJson?

end Lease

namespace Backoff

def toJson (b : Backoff) : Json :=
  .record [("maxRetries", .ofNat b.retries.toNat), ("baseDelay", b.base.toJson),
    ("maxDelay", b.cap.toJson), ("jitterFactor", .ofBinary64 b.jitter),
    ("backoffFactor", .ofBinary64 b.growth)]

def ofJson? (json : Json) : Option Backoff := do
  let r ← JsonRecord.ofJson? ["maxRetries", "baseDelay", "maxDelay", "jitterFactor",
    "backoffFactor"] false json
  return {
    retries := UInt32.ofNat (← r.require? "maxRetries" (Json.toNatBelow? UInt32.size))
    base := ← r.require? "baseDelay" Span.ofJson?
    cap := ← r.require? "maxDelay" Span.ofJson?
    jitter := ← r.require? "jitterFactor" Json.toBinary64?
    growth := ← r.require? "backoffFactor" Json.toBinary64? }

end Backoff

def Metadata.ofJson? (json : Json) : Option Metadata :=
  match json with
  | .object members => do
    let entries ← members.mapM fun (name, value) => do return (← name, ← value.toText?)
    return Metadata.ofList entries
  | _ => none

namespace Terms

def toJson (t : Terms) : Json :=
  .record [("ttl", t.ttl.toJson), ("retryStrategy", t.backoff.toJson),
    ("metadata", t.metadata.toJson), ("requestTimeout", t.callLimit.toJson)]

def ofJson? (json : Json) : Option Terms := do
  let r ← JsonRecord.ofJson? ["ttl", "retryStrategy", "metadata", "requestTimeout"] false json
  return {
    ttl := ← r.require? "ttl" Span.ofJson?
    backoff := ← r.require? "retryStrategy" Backoff.ofJson?
    metadata := ← r.getD? "metadata" Metadata.ofJson? .empty
    callLimit := ← r.getD? "requestTimeout" Span.ofJson? .zero }

end Terms

namespace HealthStatus

def toJson (s : HealthStatus) : Json := .ofString s.name

def ofJson? (json : Json) : Option HealthStatus :=
  match json with
  | .string (some name) => ofName? name
  | .object [(some name, .null)] => ofName? name
  | _ => none

end HealthStatus

namespace HealthReport

def toJson (r : HealthReport) : Json :=
  .record [("status", r.status.toJson), ("latency", r.latency.toJson),
    ("throughput", .ofBinary64 r.load), ("error", .ofString? r.error)]

def ofJson? (json : Json) : Option HealthReport := do
  let r ← JsonRecord.ofJson? ["status", "latency", "throughput", "error"] false json
  return {
    status := ← r.require? "status" HealthStatus.ofJson?
    latency := ← r.require? "latency" Span.ofJson?
    load := ← r.require? "throughput" Json.toBinary64?
    error := ← r.nullable? "error" Json.toText? }

end HealthReport

end LeaseLock
