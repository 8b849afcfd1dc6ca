import LeaseLock.Number.Decimal

namespace LeaseLock

structure JsonNumber where
  negative : Bool
  whole : List Char
  fraction : List Char
  exponent : Option Int
  deriving DecidableEq, Repr

/-- The text of a string literal; `none` if it holds half of a surrogate pair. -/
abbrev JsonText := Option String

inductive Json
  | null
  | bool (b : Bool)
  | number (n : JsonNumber)
  | string (text : JsonText)
  | array (items : List Json)
  | object (members : List (JsonText × Json))
  deriving Repr, Inhabited

namespace JsonNumber

def ofNat (n : Nat) : JsonNumber := ⟨false, Nat.toDigits 10 n, [], none⟩

def ofInt (n : Int) : JsonNumber := ⟨n < 0, Nat.toDigits 10 n.natAbs, [], none⟩

def isInteger (n : JsonNumber) : Bool := n.fraction.isEmpty && n.exponent.isNone

/-- The shortest literal of a finite double, with a point or an exponent in it. The point stands
among the digits or up to five places before them; up to sixteen digits stand before it. -/
def ofBinary64 (x : Binary64) : JsonNumber :=
  let d := x.shortest
  let digits := ((Nat.toDigits 10 d.digits).reverse.dropWhile (· = '0')).reverse
  let top := d.exponent + (Nat.toDigits 10 d.digits).length
  if digits.isEmpty then ⟨x.negative, ['0'], ['0'], none⟩
  else if 0 < top ∧ top ≤ 16 then
    let whole := digits.take top.toNat
    let fraction := digits.drop top.toNat
    ⟨d.negative, whole ++ List.replicate (top.toNat - whole.length) '0',
      if fraction.isEmpty then ['0'] else fraction, none⟩
  else if -5 < top ∧ top ≤ 0 then
    ⟨d.negative, ['0'], List.replicate top.natAbs '0' ++ digits, none⟩
  else ⟨d.negative, digits.take 1, digits.drop 1, some (top - 1)⟩

def toInt? (n : JsonNumber) : Option Int :=
  let magnitude := ofDigits n.whole
  if !n.isInteger then none
  else if n.negative then if magnitude = 0 then none else some (-(magnitude : Int))
  else some magnitude

def toNatBelow? (n : JsonNumber) (bound : Nat) : Option Nat :=
  match n.toInt? with
  | some (.ofNat k) => if k < bound then some k else none
  | _ => none

def takeDigits (significand : Nat) : List Char → Nat × List Char
  | [] => (significand, [])
  | c :: rest =>
    let next := 10 * significand + (digit? c).getD 0
    if next < UInt64.size then takeDigits next rest else (significand, c :: rest)

/-- A significand scaled by a power of ten: one multiplication or division for up to 308 places,
further divisions for smaller numbers. A number too large for a double has no value. -/
def scaled? (x : Binary64) (exponent : Int) : Option Binary64 :=
  if exponent.natAbs ≤ 308 then
    if 0 ≤ exponent then
      let y := x * Binary64.ofNat (Nat.pow 10 exponent.natAbs)
      if y.isInfinite then none else some y
    else some (x / Binary64.ofNat (Nat.pow 10 exponent.natAbs))
  else if x.units = 0 then some x
  else if 0 ≤ exponent then none
  else scaled? (x / Binary64.ofNat (Nat.pow 10 308)) (exponent + 308)
  termination_by exponent.natAbs
  decreasing_by omega

/-- The double that a literal stands for: the digits that fit a 64-bit significand, rounded and then
scaled by the remaining power of ten. -/
def toBinary64? (n : JsonNumber) : Option Binary64 :=
  let (significand, skipped) := takeDigits 0 n.whole
  let (significand, dropped) := takeDigits significand n.fraction
  let exponent := (skipped.length : Int) - (n.fraction.length - dropped.length : Nat) +
    n.exponent.getD 0
  (scaled? (Binary64.ofNat significand) exponent).map fun x => if n.negative then -x else x

end JsonNumber

namespace Json

def ofString (text : String) : Json := .string (some text)

def ofNat (n : Nat) : Json := .number (.ofNat n)

def ofInt (n : Int) : Json := .number (.ofInt n)

def ofBinary64 (x : Binary64) : Json :=
  if x.isNaN || x.isInfinite then .null else .number (.ofBinary64 x)

def record (members : List (String × Json)) : Json :=
  .object (members.map fun (name, value) => (some name, value))

def ofString? (text : Option String) : Json :=
  match text with
  | some text => ofString text
  | none => .null

def member? (json : Json) (name : String) : Option Json :=
  match json with
  | .object members => (members.reverse.find? fun m => m.1 == some name).map (·.2)
  | _ => none

end Json

end LeaseLock
