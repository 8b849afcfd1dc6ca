import LeaseLock.Lock.Backoff
import LeaseLock.Lock.Limits
import LeaseLock.Lock.Metadata

namespace LeaseLock

structure Terms where
  ttl : Span
  backoff : Backoff
  metadata : Metadata
  /-- The limit of each attempt; zero stands for the default. -/
  callLimit : Span
  deriving DecidableEq, Repr

namespace Terms

def standard : Terms := ⟨defaultTtl, .standard, .empty, defaultCallLimit⟩

instance : Inhabited Terms := ⟨standard⟩

def check (t : Terms) : Except Fault Unit := do
  checkTtl t.ttl
  t.backoff.check

def effectiveLimit (t : Terms) : Span :=
  if t.callLimit.isZero then defaultCallLimit else t.callLimit

def worstCase? (t : Terms) : Option Span := do
  let waits ← t.backoff.longestWaits?
  return (t.effectiveLimit.mulClamped t.backoff.attempts).addClamped waits

end Terms

end LeaseLock
