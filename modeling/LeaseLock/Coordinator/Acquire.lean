import LeaseLock.Coordinator.Effect
import LeaseLock.Lock.Lease
import LeaseLock.Time.InstantText

namespace LeaseLock

structure Acquisition where
  claim : Claim
  backoff : Backoff
  limit : Span
  started : Int

namespace Acquisition

inductive Attempt
  | granted (validUntil : Instant)
  | contended
  | failed (fault : Fault)
  | timedOut
  | overflow

def Attempt.ofReply : CallReply Grant → Attempt
  | .answered (.ok (.granted validUntil)) => .granted validUntil
  | .answered (.ok .contended) => .contended
  | .answered (.failed fault) => .failed fault
  | .answered .overflow => .overflow
  | .timedOut => .timedOut

def token (a : Acquisition) (validUntil : Instant) : Token :=
  ⟨a.claim.key, a.claim.leaseId, validUntil, a.claim.nonce⟩

def attemptFields (a : Acquisition) (attempt : Nat) (more : List (String × String)) :
    List (String × String) :=
  ("key", a.claim.key) :: ("attempt", decimalText attempt) :: more

def recordDuration (a : Acquisition) : Program Unit := do
  let elapsed ← Program.elapsedSince a.started
  Program.ask (.recordDuration elapsed.toSeconds)

def succeed (a : Acquisition) (attempt : Nat) (validUntil : Instant) :
    Program (Outcome Token) := do
  Program.ask (.count .acquired)
  a.recordDuration
  Program.report .info "Lock acquired" (a.attemptFields attempt
    [("lease_id", a.claim.leaseId), ("valid_until", validUntil.logText)])
  return .ok (a.token validUntil)

def abort (a : Acquisition) (attempt : Nat) (fault : Fault) : Program (Outcome Token) := do
  Program.report .error "Lock acquisition aborted by store error"
    (a.attemptFields attempt [("error", fault.message)])
  Program.ask (.count .failed)
  return .failed fault

def abandon (a : Acquisition) (attempt : Nat) : Program (Outcome Token) := do
  Program.report .error "Lock acquisition attempt timed out"
    (a.attemptFields attempt [("timeout_ms", decimalText a.limit.millisWord.toNat)])
  Program.ask (.count .failed)
  return .failed (.timedOut a.limit)

def giveUp (a : Acquisition) : Program (Outcome Token) := do
  let attempts := a.backoff.attempts
  Program.ask (.count .failed)
  a.recordDuration
  Program.report .debug "Lock acquisition retries exhausted"
    [("key", a.claim.key), ("attempts", decimalText attempts)]
  return .failed (.exhausted a.claim.key attempts)

def chooseWait (a : Acquisition) (attempt : Nat) : Program (Option Span) := do
  let wait := a.backoff.wait attempt
  if wait.drawsWord then return a.backoff.settle? wait (← Program.ask .drawWord)
  else return a.backoff.settle? wait 0

def backOff (a : Acquisition) (attempt : Nat) : Program (Outcome Unit) := do
  match ← a.chooseWait attempt with
  | none => return .overflow
  | some delay =>
    Program.report .debug "Lock contended, backing off"
      (a.attemptFields attempt [("delay_ms", decimalText delay.millisWord.toNat)])
    Program.ask (.pause delay)
    return .ok ()

def settle (a : Acquisition) (attempt : Nat) (retry : Program (Outcome Token)) :
    Attempt → Program (Outcome Token)
  | .granted validUntil => a.succeed attempt validUntil
  | .failed fault => a.abort attempt fault
  | .timedOut => a.abandon attempt
  | .overflow => return .overflow
  | .contended => do
    Program.ask (.count .contended)
    retry

def tryOnce (a : Acquisition) : Program Attempt := do
  Program.ask (.count .attempts)
  return .ofReply (← Program.ask (.call (some a.limit) (.acquire a.claim)))

def run (a : Acquisition) (attempt : Nat) : Nat → Program (Outcome Token)
  | 0 => a.tryOnce.bind (a.settle attempt a.giveUp)
  | left + 1 => a.tryOnce.bind (a.settle attempt ((a.backOff attempt).bind fun
    | .ok () => run a (attempt + 1) left
    | .failed fault => .done (.failed fault)
    | .overflow => .done .overflow))

end Acquisition

end LeaseLock
