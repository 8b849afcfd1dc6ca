import LeaseLock.Number.Binary64
import LeaseLock.Number.Digits

/-!
Decimal texts of doubles. Reading rounds the exact decimal value once; writing takes the fewest
digits that read back as the same double.
-/

namespace LeaseLock

structure Decimal where
  negative : Bool
  digits : Nat
  exponent : Int
  deriving DecidableEq, Repr

namespace Decimal

/-- The double nearest to a decimal number. Beyond the range of doubles the powers of ten are not
computed. -/
def toBinary64 (d : Decimal) : Binary64 :=
  if d.digits = 0 then Binary64.zero d.negative
  else
    let top := d.exponent + (Nat.toDigits 10 d.digits).length
    if 310 < top then Binary64.infinite d.negative
    else if top < -330 then Binary64.zero d.negative
    else if d.exponent < 0 then
      Binary64.ofRatio d.negative d.digits (Nat.pow 10 d.exponent.natAbs)
    else Binary64.ofRatio d.negative (d.digits * Nat.pow 10 d.exponent.natAbs) 1

def exponentOfText? (cs : List Char) : Option Int :=
  match cs with
  | [] => some 0
  | c :: rest => if c = 'e' ∨ c = 'E' then intOfText? rest else none

def ofUnsignedText? (negative : Bool) (cs : List Char) : Option Decimal :=
  let whole := cs.takeWhile isDigit
  let rest := cs.dropWhile isDigit
  let (fraction, rest) := match rest with
    | '.' :: rest => (rest.takeWhile isDigit, rest.dropWhile isDigit)
    | rest => ([], rest)
  if whole.isEmpty && fraction.isEmpty then none
  else (exponentOfText? rest).map fun e =>
    ⟨negative, ofDigits (whole ++ fraction), e - fraction.length⟩

end Decimal

namespace Binary64

inductive ReadError
  | empty
  | invalid
  deriving DecidableEq, Repr

def ReadError.message : ReadError → String
  | .empty => "cannot parse float from empty string"
  | .invalid => "invalid float literal"

def ofUnsignedText? (negative : Bool) (cs : List Char) : Option Binary64 :=
  let word := String.ofList (lowerAscii cs)
  if word = "nan" then some nan
  else if word = "inf" ∨ word = "infinity" then some (infinite negative)
  else (Decimal.ofUnsignedText? negative cs).map Decimal.toBinary64

def ofText (text : String) : Except ReadError Binary64 :=
  match text.toList with
  | [] => .error .empty
  | cs =>
    let read := match cs with
      | '-' :: rest => ofUnsignedText? true rest
      | '+' :: rest => ofUnsignedText? false rest
      | rest => ofUnsignedText? false rest
    match read with
    | some x => .ok x
    | none => .error .invalid

def leadingZeros (units : Nat) : Nat → Nat
  | 0 => 0
  | fuel + 1 => if one ≤ units then 0 else leadingZeros (10 * units) fuel + 1

def decimalTop (units : Nat) : Int :=
  if one ≤ units then (Nat.toDigits 10 (units / one)).length
  else 1 - (leadingZeros units 400 : Int)

/-- The double of the same magnitude as `x` written with `places` digits, if one of the two
neighbours of `x` on that decimal grid reads back as `x`; the nearer one if both do. -/
def withDigits? (x : Binary64) (places : Nat) : Option Decimal :=
  let exponent := decimalTop x.units - places
  let num := if exponent < 0 then x.units * Nat.pow 10 exponent.natAbs else x.units
  let den := if exponent < 0 then one else one * Nat.pow 10 exponent.natAbs
  let low : Decimal := ⟨x.negative, num / den, exponent⟩
  let high : Decimal := ⟨x.negative, num / den + 1, exponent⟩
  let nearer := if 2 * (num % den) < den then low else high
  let other := if 2 * (num % den) < den then high else low
  if nearer.toBinary64 = x then some nearer
  else if other.toBinary64 = x then some other
  else none

def shortest (x : Binary64) : Decimal :=
  ((List.range 17).findSome? fun n => x.withDigits? (n + 1)).getD ⟨x.negative, 0, 0⟩

end Binary64

def Decimal.positional (d : Decimal) : String :=
  let digits := Nat.toDigits 10 d.digits
  let sign := if d.negative then "-" else ""
  if d.digits = 0 then sign ++ "0"
  else if 0 ≤ d.exponent then
    sign ++ String.ofList (digits ++ List.replicate d.exponent.natAbs '0')
  else
    let places := d.exponent.natAbs
    let padded := List.replicate (places + 1 - digits.length) '0' ++ digits
    let whole := padded.take (padded.length - places)
    let fraction := (padded.drop (padded.length - places)).reverse.dropWhile (· = '0')
    if fraction.isEmpty then sign ++ String.ofList whole
    else sign ++ String.ofList (whole ++ '.' :: fraction.reverse)

def Binary64.text (x : Binary64) : String :=
  if x.isNaN then "NaN"
  else if x.isInfinite then if x.negative then "-inf" else "inf"
  else if x.units = 0 then if x.negative then "-0" else "0"
  else x.shortest.positional

end LeaseLock
