import LeaseLock.Time.Span
import LeaseLock.Number.Digits

namespace LeaseLock

def fractionText (fraction places : Nat) : String :=
  let digits := (zeroPadded places (decimalText fraction)).toList.reverse.dropWhile (· = '0')
  if digits.isEmpty then "" else "." ++ String.ofList digits.reverse

namespace Span

def inUnit (nanos places : Nat) (unit : String) : String :=
  decimalText (nanos / Nat.pow 10 places) ++ fractionText (nanos % Nat.pow 10 places) places ++ unit

def text (s : Span) : String :=
  if nanosPerSecond ≤ s.nanos then inUnit s.nanos 9 "s"
  else if nanosPerMilli ≤ s.nanos then inUnit s.nanos 6 "ms"
  else if 1000 ≤ s.nanos then inUnit s.nanos 3 "µs"
  else inUnit s.nanos 0 "ns"

end Span

end LeaseLock
