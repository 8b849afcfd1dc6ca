import LeaseLock.Text.Reader
import LeaseLock.Text.Unicode
import LeaseLock.Time.Instant
import LeaseLock.Time.SpanText

namespace LeaseLock

namespace Instant

def day (t : Instant) : CalendarDay := CalendarDay.ofDays (t.seconds / secondsPerDay)

def yearText (year : Int) : String :=
  let digits := zeroPadded 4 (decimalText year.natAbs)
  if year < 0 then "-" ++ digits else if 9999 < year then "+" ++ digits else digits

def twoDigits (n : Nat) : String := zeroPadded 2 (decimalText n)

def dateText (d : CalendarDay) : String :=
  yearText d.year ++ "-" ++ twoDigits d.month ++ "-" ++ twoDigits d.day

def subsecondText (nanos : Nat) : String :=
  if nanos = 0 then ""
  else if nanos % 1000000 = 0 then "." ++ zeroPadded 3 (decimalText (nanos / 1000000))
  else if nanos % 1000 = 0 then "." ++ zeroPadded 6 (decimalText (nanos / 1000))
  else "." ++ zeroPadded 9 (decimalText nanos)

def timeText (t : Instant) : String :=
  let seconds := t.secondOfDay.toNat
  twoDigits (seconds / 3600) ++ ":" ++ twoDigits (seconds / 60 % 60) ++ ":" ++
    twoDigits (seconds % 60 + t.fraction / nanosPerSecond) ++
    subsecondText (t.fraction % nanosPerSecond)

/-- The text used in documents, `2023-11-14T22:13:20.500Z`. -/
def text (t : Instant) : String := dateText t.day ++ "T" ++ t.timeText ++ "Z"

/-- The text used in log lines, `2023-11-14 22:13:20.500 UTC`. -/
def logText (t : Instant) : String := dateText t.day ++ " " ++ t.timeText ++ " UTC"

def skipBlanks (cs : List Char) : List Char := cs.dropWhile Unicode.isBlank

def readNumber (width : Nat) : Reader Nat := fun cs =>
  let digits := (cs.take width).takeWhile isDigit
  if digits.isEmpty then none else some (ofDigits digits, cs.drop digits.length)

def readYear : Reader Int := fun cs =>
  match cs with
  | '-' :: rest => (readNumber rest.length rest).map fun (n, rest) => (-(n : Int), rest)
  | '+' :: rest => (readNumber rest.length rest).map fun (n, rest) => ((n : Int), rest)
  | rest => (readNumber 4 rest).map fun (n, rest) => ((n : Int), rest)

def readMark (mark : Char) : Reader Unit := fun cs =>
  match cs with
  | c :: rest => if c = mark then some ((), rest) else none
  | [] => none

def readDate : Reader CalendarDay := fun cs => do
  let (year, cs) ← readYear (skipBlanks cs)
  let ((), cs) ← readMark '-' (skipBlanks cs)
  let (month, cs) ← readNumber 2 (skipBlanks cs)
  let ((), cs) ← readMark '-' (skipBlanks cs)
  let (day, cs) ← readNumber 2 (skipBlanks cs)
  let date ← CalendarDay.of? year month day
  if -262143 ≤ year ∧ year ≤ 262142 then return (date, cs) else none

def readJoin : Reader Unit := fun cs =>
  match cs with
  | c :: rest => if c = 'T' ∨ c = 't' ∨ c = ' ' then some ((), rest) else none
  | [] => none

def readFraction : Reader Nat := fun cs =>
  match cs with
  | '.' :: rest =>
    let digits := rest.takeWhile isDigit
    if digits.isEmpty then none
    else
      let kept := digits.take 9
      some (ofDigits kept * Nat.pow 10 (9 - kept.length), rest.drop digits.length)
  | rest => some (0, rest)

def readTime : Reader (Nat × Nat) := fun cs => do
  let (hour, cs) ← readNumber 2 (skipBlanks cs)
  let ((), cs) ← readMark ':' (skipBlanks cs)
  let (minute, cs) ← readNumber 2 (skipBlanks cs)
  let ((), cs) ← readMark ':' (skipBlanks cs)
  let (second, cs) ← readNumber 2 (skipBlanks cs)
  let (fraction, cs) ← readFraction cs
  let minutes := hour * 60 + minute
  if 24 ≤ hour ∨ 60 ≤ minute ∨ 60 < second then none
  else if second = 60 then return ((minutes * 60 + 59, nanosPerSecond + fraction), cs)
  else return ((minutes * 60 + second, fraction), cs)

def readPair : Reader Nat := fun cs =>
  match cs with
  | a :: b :: rest => do return (10 * (← digit? a) + (← digit? b), rest)
  | _ => none

def readOffset : Reader Int := fun cs =>
  if lowerAscii (cs.take 3) = ['u', 't', 'c'] then some (0, cs.drop 3)
  else
    match cs with
    | c :: rest =>
      if c = 'Z' ∨ c = 'z' then some (0, rest)
      else if c = '+' ∨ c = '-' ∨ c = '−' then do
        let (hours, rest) ← readPair rest
        let (minutes, rest) ← readPair (rest.dropWhile fun c => c = ':' || Unicode.isBlank c)
        if 24 ≤ hours ∨ 60 ≤ minutes then none
        else
          let seconds : Int := hours * 3600 + minutes * 60
          return (if c = '+' then seconds else -seconds, rest)
      else none
    | [] => none

def ofText? (text : String) : Option Instant := do
  let (date, cs) ← readDate text.toList
  let ((), cs) ← readJoin cs
  let ((second, fraction), cs) ← readTime cs
  let (offset, cs) ← readOffset (skipBlanks cs)
  if (skipBlanks cs).isEmpty then
    ofParts? (date.toDays * secondsPerDay + second - offset) fraction
  else none

end Instant

end LeaseLock
