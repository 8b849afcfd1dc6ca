import LeaseLock.Number.Rounding

/-!
Double precision numbers as 64-bit words. A finite double is a whole number of units of `2 ^ -1074`,
so every operation computes exactly on natural numbers and rounds once, in `ofUnits`.
-/

namespace LeaseLock

structure Binary64 where
  bits : UInt64
  deriving DecidableEq, Repr, Inhabited

namespace Binary64

def fieldUnit : Nat := Nat.pow 2 52

def signUnit : Nat := Nat.pow 2 63

/-- One, counted in units of `2 ^ -1074`. -/
def one : Nat := Nat.pow 2 1074

def infinityWord : Nat := 2047 * fieldUnit

def negative (x : Binary64) : Bool := signUnit ≤ x.bits.toNat

def word (x : Binary64) : Nat := x.bits.toNat % signUnit

def isNaN (x : Binary64) : Bool := infinityWord < x.word

def isInfinite (x : Binary64) : Bool := x.word == infinityWord

def isFinite (x : Binary64) : Bool := x.word < infinityWord

/-- The magnitude that a word without sign stands for: the fraction alone for an exponent field of
zero, otherwise the fraction with its leading bit, scaled by the field. -/
def unitsOfWord (w : Nat) : Nat :=
  if w < fieldUnit then w else (fieldUnit + w % fieldUnit) * Nat.pow 2 (w / fieldUnit - 1)

def units (x : Binary64) : Nat := unitsOfWord x.word

def value (x : Binary64) : Int :=
  if x.negative then -(x.units : Int) else x.units

def pack (negative : Bool) (word : Nat) : Binary64 :=
  ⟨UInt64.ofNat (word + if negative then signUnit else 0)⟩

def nan : Binary64 := pack false (infinityWord + fieldUnit / 2)

def infinite (negative : Bool) : Binary64 := pack negative infinityWord

def zero (negative : Bool) : Binary64 := pack negative 0

/-- The word of the double nearest to `n / d` units, a half going to the even word. The fraction is
rounded at the last of its fifty-three bits; one that rounds up to the next power of two carries
into the exponent field. -/
def wordOfUnits (n d : Nat) : Nat :=
  let shift := (n / d).log2 - 52
  min (shift * fieldUnit + roundDiv n (d * Nat.pow 2 shift)) infinityWord

def ofUnits (negative : Bool) (n d : Nat) : Binary64 := pack negative (wordOfUnits n d)

def ofNat (n : Nat) : Binary64 := ofUnits false (n * one) 1

def ofRatio (negative : Bool) (n d : Nat) : Binary64 := ofUnits negative (n * one) d

def neg (x : Binary64) : Binary64 :=
  if x.isNaN then nan else pack (!x.negative) x.word

def mul (x y : Binary64) : Binary64 :=
  let sign := x.negative != y.negative
  if x.isNaN || y.isNaN then nan
  else if x.isInfinite || y.isInfinite then
    if x.units = 0 || y.units = 0 then nan else infinite sign
  else ofUnits sign (x.units * y.units) one

def div (x y : Binary64) : Binary64 :=
  let sign := x.negative != y.negative
  if x.isNaN || y.isNaN then nan
  else if x.isInfinite then if y.isInfinite then nan else infinite sign
  else if y.isInfinite then zero sign
  else if y.units = 0 then if x.units = 0 then nan else infinite sign
  else ofUnits sign (x.units * one) y.units

def add (x y : Binary64) : Binary64 :=
  if x.isNaN || y.isNaN then nan
  else if x.isInfinite then
    if y.isInfinite && x.negative != y.negative then nan else x
  else if y.isInfinite then y
  else
    let sum := x.value + y.value
    if sum = 0 then zero (x.negative && y.negative)
    else ofUnits (decide (sum < 0)) sum.natAbs 1

def sub (x y : Binary64) : Binary64 := add x (neg y)

/-- The place of a double that is not NaN on the line, infinities at its ends. -/
def rank (x : Binary64) : Int :=
  if x.negative then -(x.word : Int) else x.word

def lt (x y : Binary64) : Bool :=
  !x.isNaN && !y.isNaN && decide (x.rank < y.rank)

def le (x y : Binary64) : Bool :=
  !x.isNaN && !y.isNaN && decide (x.rank ≤ y.rank)

instance : Add Binary64 := ⟨add⟩
instance : Sub Binary64 := ⟨sub⟩
instance : Mul Binary64 := ⟨mul⟩
instance : Div Binary64 := ⟨div⟩
instance : Neg Binary64 := ⟨neg⟩
instance : OfNat Binary64 n := ⟨ofNat n⟩

def powFrom (acc base : Binary64) (n : Nat) : Binary64 :=
  let acc := if n % 2 = 1 then acc * base else acc
  if n / 2 = 0 then acc else powFrom acc (base * base) (n / 2)
  termination_by n
  decreasing_by omega

def pow (base : Binary64) (n : Nat) : Binary64 := powFrom 1 base n

def truncate (x : Binary64) : Int :=
  let whole := x.units / one
  if x.negative then -(whole : Int) else whole

def roundAway (x : Binary64) : Int :=
  let whole := roundDivUp x.units one
  if x.negative then -(whole : Int) else whole

end Binary64

end LeaseLock
