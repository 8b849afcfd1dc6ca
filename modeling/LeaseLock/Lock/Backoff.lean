import LeaseLock.Lock.Fault

namespace LeaseLock

/-- Attempt `n` is followed by a wait of `base * growth ^ n`, at most `cap`, spread by up to `jitter`
of itself to either side. -/
structure Backoff where
  retries : UInt32
  base : Span
  cap : Span
  jitter : Binary64
  growth : Binary64
  deriving DecidableEq, Repr

namespace Backoff

def standard : Backoff where
  retries := 5
  base := .ofMillis 100
  cap := .ofSeconds 10
  jitter := .ofRatio false 3 10
  growth := 2

def none : Backoff := { standard with retries := 0 }

def check (b : Backoff) : Except Fault Unit :=
  if b.base.isZero then .error (.invalidBackoff "base delay must be > 0")
  else if b.cap < b.base then .error (.invalidBackoff "max delay must be ≥ base delay")
  else if !(Binary64.le 0 b.jitter && b.jitter.le 1) then
    .error (.invalidBackoff "jitter factor must be [0.0, 1.0]")
  else if !(Binary64.le 1 b.growth && b.growth.isFinite) then
    .error (.invalidBackoff "backoff factor must be ≥ 1")
  else .ok ()

def maxExponent : Nat := UInt32.size / 2 - 1

def delay? (b : Backoff) (attempt : Nat) : Option Span :=
  let scaled := b.base.toSeconds * b.growth.pow (min attempt maxExponent)
  if !scaled.isFinite || b.cap.toSeconds.le scaled then some b.cap
  else (Span.ofSecondsFloat? scaled).map (min · b.cap)

/-- A number in `[0, 1)` from the upper 52 bits of a random word. -/
def unitOfWord (word : UInt64) : Binary64 :=
  Binary64.mk (0x3ff0000000000000 + word / 4096) - 1

inductive Wait
  | steady (delay : Span)
  | spread (delay : Span) (width : Binary64)
  | overflow
  deriving DecidableEq, Repr

def jitterWidth? (b : Backoff) : Option Binary64 :=
  let width := b.jitter - (-b.jitter)
  if b.jitter.isFinite && width.isFinite then some width else Option.none

def wait (b : Backoff) (attempt : Nat) : Wait :=
  match b.delay? attempt with
  | Option.none => .overflow
  | some delay =>
    if b.jitter.le 0 || delay.isZero then .steady delay
    else
      match b.jitterWidth? with
      | some width => .spread delay width
      | Option.none => .overflow

def Wait.drawsWord : Wait → Bool
  | .spread _ _ => true
  | _ => false

def notNegative (x : Binary64) : Binary64 :=
  if x.isNaN || x.lt 0 then 0 else x

def settle? (b : Backoff) (wait : Wait) (word : UInt64) : Option Span :=
  match wait with
  | .steady delay => some delay
  | .spread delay width =>
    let offset := unitOfWord word * width + (-b.jitter)
    let seconds := delay.toSeconds * (1 + offset)
    (Span.ofSecondsFloat? (notNegative seconds)).map (min · b.cap)
  | .overflow => Option.none

def jittered? (b : Backoff) (attempt : Nat) (word : UInt64) : Option Span :=
  b.settle? (b.wait attempt) word

def longestWait? (b : Backoff) (attempt : Nat) : Option Span := do
  let delay ← b.delay? attempt
  let stretched ← delay.scale? (1 + b.jitter)
  return min stretched b.cap

def longestWaitsFrom? (b : Backoff) (attempt : Nat) (total : Span) : Nat → Option Span
  | 0 => some total
  | count + 1 => do
    let wait ← b.longestWait? attempt
    b.longestWaitsFrom? (attempt + 1) (total.addClamped wait) count

def longestWaits? (b : Backoff) : Option Span := b.longestWaitsFrom? 0 .zero b.retries.toNat

/-- The number of attempts in all, at most the largest 32-bit number. -/
def attempts (b : Backoff) : Nat := min (b.retries.toNat + 1) (UInt32.size - 1)

end Backoff

end LeaseLock
