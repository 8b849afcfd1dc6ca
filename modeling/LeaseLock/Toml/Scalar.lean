import LeaseLock.Config.Value
import LeaseLock.Text.Reader
import LeaseLock.Time.InstantText

namespace LeaseLock.Toml

open Config (Value)

def withoutUnderscores? (test : Char → Bool) (cs : List Char) : Option (List Char) :=
  let groups := cs.splitOn '_'
  if groups.all fun group => !group.isEmpty && group.all test then some groups.flatten else none

def inBase? (base : Nat) (cs : List Char) : Option Value := do
  let digits ← (← withoutUnderscores? (fun c => ((hexDigit? c).any (· < base))) cs).mapM hexDigit?
  let n := digits.foldl (fun n d => base * n + d) 0
  if n ≤ Value.greatest then some (.integer n) else none

def isSign (c : Char) : Bool := c = '+' || c = '-'

def wholeDigits? (cs : List Char) : Option (List Char) := do
  let digits ← withoutUnderscores? isDigit cs
  if digits.head? = some '0' ∧ 1 < digits.length then none else some digits

def decimal? (negative : Bool) (cs : List Char) : Option Value := do
  let n := ofDigits (← wholeDigits? cs)
  if negative then if n ≤ Value.greatest + 1 then some (.integer (-(n : Int))) else none
  else if n ≤ Value.greatest then some (.integer n) else none

def real? (negative : Bool) (cs : List Char) : Option Value := do
  if cs.all fun c => isDigit c || c = '_' then none
  let (mantissa, exponent) := cs.span fun c => c ≠ 'e' ∧ c ≠ 'E'
  let (whole, fraction) := mantissa.span (· ≠ '.')
  let whole ← wholeDigits? whole
  let fraction ← if fraction.isEmpty then some [] else withoutUnderscores? isDigit (fraction.drop 1)
  let exponent ← match exponent.drop 1 with
    | [] => if exponent.isEmpty then some 0 else none
    | c :: rest => do
      let digits ← withoutUnderscores? isDigit (if isSign c then rest else c :: rest)
      let n : Int := ofDigits digits
      some (if c = '-' then -n else n)
  let d : Decimal := ⟨negative, ofDigits (whole ++ fraction), exponent - fraction.length⟩
  if d.toBinary64.isInfinite then none else some (.float d.toBinary64)

def unsigned? (negative : Bool) (cs : List Char) : Option Value :=
  if cs = "inf".toList then some (.float (.infinite negative))
  else if cs = "nan".toList then some (.float .nan)
  else (decimal? negative cs).or (real? negative cs)

def number? (cs : List Char) : Option Value :=
  match cs with
  | '0' :: 'x' :: rest => inBase? 16 rest
  | '0' :: 'o' :: rest => inBase? 8 rest
  | '0' :: 'b' :: rest => inBase? 2 rest
  | '-' :: rest => unsigned? true rest
  | '+' :: rest => unsigned? false rest
  | cs => unsigned? false cs

namespace Date

def day : Reader String := fun cs => do
  let [a, b, c, d, '-', e, f, '-', g, h] := cs.take 10 | none
  let year ← natOfText? [a, b, c, d]
  let date ← CalendarDay.of? year (← natOfText? [e, f]) (← natOfText? [g, h])
  return (Instant.dateText date, cs.drop 10)

def below (bound : Nat) : Reader String := fun cs => do
  let n ← natOfText? (cs.take 2)
  if cs.length < 2 ∨ bound ≤ n then none else some (Instant.twoDigits n, cs.drop 2)

def fraction : Reader String := do
  if ← Reader.accept "." then
    let digits ← Reader.takeWhile isDigit
    if digits.isEmpty then Reader.fail
    let kept := ((digits.take 9).reverse.dropWhile (· = '0')).reverse
    return if kept.isEmpty then "" else String.ofList ('.' :: kept)
  else return ""

def time : Reader String := do
  let hour ← below 24
  Reader.expect ":"
  let minute ← below 60
  if ← Reader.accept ":" then
    let second ← below 61
    return hour ++ ":" ++ minute ++ ":" ++ second ++ (← fraction)
  else return hour ++ ":" ++ minute ++ ":00"

def offset : Reader String := do
  match ← Reader.next? with
  | none => return ""
  | some c =>
    Reader.skip 1
    if c = 'Z' ∨ c = 'z' then return "Z"
    else if isSign c then
      let hour ← below 24
      Reader.expect ":"
      let minute ← below 60
      let isZero := hour ++ minute == "0000"
      return (if c = '-' && !isZero then "-" else "+") ++ hour ++ ":" ++ minute
    else Reader.fail

def any : Reader String := do
  match (← get)[2]? with
  | some ':' => time
  | _ =>
    let day ← day
    match ← Reader.next? with
    | none => return day
    | some c =>
      Reader.skip 1
      if c = 'T' ∨ c = 't' ∨ c = ' ' then return day ++ "T" ++ (← time) ++ (← offset)
      else Reader.fail

end Date

def isScalarChar (c : Char) : Bool := c.isAlphanum || "_+-.:".toList.contains c

def joinsTime (word rest : List Char) : Bool :=
  match rest with
  | ' ' :: a :: b :: ':' :: _ => (Date.day word).any (·.2.isEmpty) && isDigit a && isDigit b
  | _ => false

def ofWord? (cs : List Char) : Option Value :=
  if cs = "true".toList then some (.bool true)
  else if cs = "false".toList then some (.bool false)
  else (number? cs).or ((Date.any.read? (String.ofList cs)).map .text)

def scalar : Reader Value := do
  let word ← Reader.takeWhile isScalarChar
  if joinsTime word (← get) then
    Reader.skip 1
    let time ← Reader.takeWhile isScalarChar
    Reader.ofOption (ofWord? (word ++ ' ' :: time))
  else Reader.ofOption (ofWord? word)

end LeaseLock.Toml
