import LeaseLock.Time.Span
import LeaseLock.Time.Calendar

/-!
Instants of universal time, within the years that the calendar text can name: from -262143-01-01 to
the end of +262142-12-31. Every day has 86400 seconds, and any of them may be followed by a leap
second.
-/

namespace LeaseLock

def secondsPerDay : Nat := 86400

/-- A moment of universal time. From a whole second on, the fraction is that of a leap second which
follows the given one. -/
structure Instant where
  seconds : Int
  fraction : Nat
  inRange : -8334601228800 ≤ seconds ∧ seconds ≤ 8210266876799
  inSecond : fraction < 2 * nanosPerSecond
  deriving DecidableEq, Repr

namespace Instant

theorem eq_of_parts {s t : Instant} (hs : s.seconds = t.seconds) (hf : s.fraction = t.fraction) :
    s = t := by
  cases s; cases t; cases hs; cases hf; rfl

def ofParts? (seconds : Int) (fraction : Nat) : Option Instant :=
  if hs : -8334601228800 ≤ seconds ∧ seconds ≤ 8210266876799 then
    if hf : fraction < 2 * nanosPerSecond then some ⟨seconds, fraction, hs, hf⟩ else none
  else none

def ofNanos? (n : Int) : Option Instant :=
  ofParts? (n / nanosPerSecond) (n % nanosPerSecond).toNat

def ofMillis? (ms : Int) : Option Instant := ofNanos? (ms * nanosPerMilli)

/-- What a clock shows that cannot go back behind the epoch. -/
def ofClock? (nanos : Int) : Option Instant := if nanos < 0 then none else ofNanos? nanos

def epoch : Instant := ⟨0, 0, by decide, by decide⟩

def earliest : Instant := ⟨-8334601228800, 0, by decide, by decide⟩

def latest : Instant := ⟨8210266876799, nanosPerSecond - 1, by decide, by decide⟩

instance : Inhabited Instant := ⟨epoch⟩

def isBefore (s t : Instant) : Bool :=
  s.seconds < t.seconds || (s.seconds == t.seconds && s.fraction < t.fraction)

instance : LT Instant := ⟨fun s t => s.isBefore t⟩
instance : LE Instant := ⟨fun s t => !t.isBefore s⟩
instance (s t : Instant) : Decidable (s < t) := inferInstanceAs (Decidable (s.isBefore t = true))
instance (s t : Instant) : Decidable (s ≤ t) := inferInstanceAs (Decidable ((!t.isBefore s) = true))
instance : Max Instant := ⟨fun s t => if s ≤ t then t else s⟩

def isLeap (t : Instant) : Bool := nanosPerSecond ≤ t.fraction

def secondOfDay (t : Instant) : Int := t.seconds % secondsPerDay

/-- The instant a number of nanoseconds later, or earlier if it is negative. Inside a leap second
only the fraction moves; a shift that leaves it counts the second once. -/
def shift? (t : Instant) (nanos : Int) : Option Instant :=
  let whole := nanos.tdiv nanosPerSecond
  let part := nanos.tmod nanosPerSecond
  let ordinary (seconds fraction : Int) : Option Instant :=
    ofNanos? (seconds * nanosPerSecond + fraction)
  if t.isLeap then
    if 0 < whole ∨ 2 * nanosPerSecond ≤ t.fraction + part then
      ordinary (t.seconds + whole) (t.fraction - nanosPerSecond + part)
    else if whole < 0 then
      ordinary (t.seconds + 1 + whole) (t.fraction - nanosPerSecond + part)
    else ofParts? t.seconds (t.fraction + part).toNat
  else ordinary (t.seconds + whole) (t.fraction + part)

def add? (t : Instant) (s : Span) : Option Instant := t.shift? s.nanos

def sub? (t : Instant) (s : Span) : Option Instant := t.shift? (-s.nanos)

/-- The leap second to be counted between two instants: that of the one with the earlier time of
day. -/
def leapBetween (t s : Instant) : Int :=
  if s.secondOfDay < t.secondOfDay ∧ s.isLeap then 1
  else if t.secondOfDay < s.secondOfDay ∧ t.isLeap then -1
  else 0

theorem leapBetween_bounds (t s : Instant) : -1 ≤ leapBetween t s ∧ leapBetween t s ≤ 1 := by
  unfold leapBetween
  split
  · decide
  · split <;> decide

def nanosSince (t s : Instant) : Int :=
  (t.seconds - s.seconds + leapBetween t s) * nanosPerSecond + (t.fraction - s.fraction)

theorem since_lt (t s : Instant) : (t.nanosSince s).toNat < UInt64.size * nanosPerSecond := by
  have hs := s.inRange
  have ht := t.inRange
  have hf := t.inSecond
  have hl := leapBetween_bounds t s
  simp only [nanosSince, UInt64.size, nanosPerSecond] at *
  omega

def since (t s : Instant) : Span := ⟨(t.nanosSince s).toNat, since_lt t s⟩

end Instant

end LeaseLock
