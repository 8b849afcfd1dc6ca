import LeaseLock.Coordinator.Acquire

/-!
The coordinator: checks what it is given, bounds every call on the store, and turns answers into
tokens and faults. It keeps no record of the locks it has granted.
-/

namespace LeaseLock

structure Coordinator where
  callLimit : Span
  deriving DecidableEq, Repr

namespace Coordinator

/-- A coordinator with the given limit; zero stands for the default. -/
def withLimit (limit : Span) : Coordinator := ⟨if limit.isZero then defaultCallLimit else limit⟩

def standard : Coordinator := ⟨defaultCallLimit⟩

instance : Inhabited Coordinator := ⟨standard⟩

/-- The key, the terms and the coordinator are checked in this order. -/
def acquire (key : String) (terms : Terms) : Program (Outcome Token) :=
  Program.guarded (checkKey key) <| Program.guarded terms.check <| Program.whenOpen do
    let leaseId ← Program.ask .mint
    let nonce ← Program.ask .mint
    let started ← Program.ask .readClock
    let acquisition : Acquisition := {
      claim := ⟨key, leaseId, nonce, terms.ttl, terms.metadata.text⟩
      backoff := terms.backoff
      limit := terms.effectiveLimit
      started := started }
    acquisition.run 0 terms.backoff.retries.toNat

def bounded (c : Coordinator) (call : Call) : Program (Outcome call.Answer) := do
  match ← Program.ask (.call (some c.callLimit) call) with
  | .answered outcome => return outcome
  | .timedOut => return .failed (.timedOut c.callLimit)

def answering (c : Coordinator) (call : Call) (next : call.Answer → Program (Outcome α)) :
    Program (Outcome α) := do
  match ← c.bounded call with
  | .ok answer => next answer
  | .failed fault => return .failed fault
  | .overflow => return .overflow

def reject (message : String) (fault : Fault) : Program (Outcome α) := do
  Program.ask (.count .mismatched)
  Program.report .warn message []
  return .failed fault

def release (c : Coordinator) (token : Token) : Program (Outcome Unit) :=
  Program.guarded (checkKey token.key) <| Program.whenOpen <|
    c.answering (.release token.key token.leaseId token.nonce) fun removed => do
      if removed = 0 then reject "Lock release rejected: ownership mismatch" .notOwner
      else
        Program.ask (.count .released)
        Program.report .info "Lock released" []
        return .ok ()

def renew (c : Coordinator) (token : Token) (ttl : Span) : Program (Outcome Token) :=
  Program.guarded (checkKey token.key) <| Program.guarded (checkTtl ttl) <| Program.whenOpen <|
    c.answering (.renew token.key token.leaseId token.nonce ttl) fun
      | some renewal => do
        Program.ask (.count .renewed)
        Program.report .info "Lock refreshed" [("valid_until", renewal.validUntil.logText)]
        return .ok { token with validUntil := renewal.validUntil, nonce := renewal.nonce }
      | none => reject "Lock refresh rejected: past safety margin or not owned" .tooLate

def isHeld (c : Coordinator) (token : Token) : Program (Outcome Holding) :=
  Program.guarded (checkKey token.key) <| Program.whenOpen <| c.bounded (.isHeld token.key)

def describeProbe (latency : Span) (use : PoolUse) : Program HealthReport := do
  let status := use.status latency
  if status = .degraded then
    Program.report .warn "Lock store degraded"
      [("latency_ms", decimalText latency.millisWord.toNat),
        ("active_connections", decimalText use.active)]
  return ⟨status, latency, .ofNat use.active, none⟩

def health : Program (Outcome HealthReport) := do
  if ← Program.ask .isClosed then return .ok (.unavailable .zero Fault.closed.message)
  else
    let started ← Program.ask .readClock
    let reply ← Program.ask (.call (some healthCallLimit) .probe)
    let latency ← Program.elapsedSince started
    match reply with
    | .answered (.ok use) => return .ok (← describeProbe latency use)
    | .answered (.failed fault) =>
      Program.report .error "Lock store health probe failed" [("error", fault.message)]
      return .ok (.unavailable latency fault.message)
    | .answered .overflow => return .overflow
    | .timedOut =>
      Program.report .error "Lock store health probe timed out"
        [("timeout_ms", decimalText healthCallLimit.millisWord.toNat)]
      return .ok (.unavailable latency (Fault.timedOut healthCallLimit).message)

def close : Program (Outcome Unit) := do
  if ← Program.ask .markClosed then return .ok ()
  else
    Program.report .info "Closing lock coordinator" []
    match ← Program.ask (.call none .close) with
    | .answered outcome => return outcome
    | .timedOut => return .ok ()

end Coordinator

end LeaseLock
