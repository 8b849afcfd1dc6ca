import LeaseLock.Number.Binary64

namespace LeaseLock

def nanosPerSecond : Nat := 1000000000

def nanosPerMilli : Nat := 1000000

structure Span where
  nanos : Nat
  inRange : nanos < UInt64.size * nanosPerSecond
  deriving DecidableEq, Repr

namespace Span

theorem eq_of_nanos {s t : Span} (h : s.nanos = t.nanos) : s = t := by
  cases s; cases t; cases h; rfl

def ofNanos? (n : Nat) : Option Span :=
  if h : n < UInt64.size * nanosPerSecond then some ⟨n, h⟩ else none

def zero : Span := ⟨0, by decide⟩

def longest : Span := ⟨UInt64.size * nanosPerSecond - 1, by decide⟩

instance : Inhabited Span := ⟨zero⟩

def clamp (n : Nat) : Span := (ofNanos? n).getD longest

def ofMillis (ms : UInt64) : Span :=
  ⟨ms.toNat * nanosPerMilli, by
    have := ms.toNat_lt_size
    simp only [nanosPerMilli, nanosPerSecond]
    omega⟩

def ofSeconds (s : UInt64) : Span :=
  ⟨s.toNat * nanosPerSecond, by
    have := s.toNat_lt_size
    simp only [nanosPerSecond]
    omega⟩

def seconds (s : Span) : Nat := s.nanos / nanosPerSecond

def fraction (s : Span) : Nat := s.nanos % nanosPerSecond

def millis (s : Span) : Nat := s.nanos / nanosPerMilli

def millisWord (s : Span) : UInt64 := UInt64.ofNat s.millis

def ceilMillis (s : Span) : Nat := ceilDiv s.nanos nanosPerMilli

def isZero (s : Span) : Bool := s.nanos == 0

instance : LE Span := ⟨fun s t => s.nanos ≤ t.nanos⟩
instance : LT Span := ⟨fun s t => s.nanos < t.nanos⟩
instance (s t : Span) : Decidable (s ≤ t) := inferInstanceAs (Decidable (s.nanos ≤ t.nanos))
instance (s t : Span) : Decidable (s < t) := inferInstanceAs (Decidable (s.nanos < t.nanos))
instance : Min Span := ⟨fun s t => if s ≤ t then s else t⟩

def add? (s t : Span) : Option Span := ofNanos? (s.nanos + t.nanos)

def addClamped (s t : Span) : Span := clamp (s.nanos + t.nanos)

def mulClamped (s : Span) (n : Nat) : Span := clamp (s.nanos * n)

/-- The span in seconds as a double: whole seconds and nanoseconds are rounded, then their sum. -/
def toSeconds (s : Span) : Binary64 :=
  Binary64.ofNat s.seconds + Binary64.ofNat s.fraction / Binary64.ofNat nanosPerSecond

/-- The span nearest to a number of seconds, a half nanosecond going to the even one. Negative and
non-finite numbers and those out of range have none. -/
def ofSecondsFloat? (x : Binary64) : Option Span :=
  if !x.isFinite || x.lt 0 then none
  else ofNanos? (roundDiv (x.units * nanosPerSecond) Binary64.one)

def scale? (s : Span) (factor : Binary64) : Option Span := ofSecondsFloat? (factor * s.toSeconds)

end Span

end LeaseLock
