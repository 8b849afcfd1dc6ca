import LeaseLock.Sql.Clock

namespace LeaseLock.Sql

def isWord (n : Int) : Bool := -((UInt64.size / 2 : Nat) : Int) ≤ n ∧ n < (UInt64.size / 2 : Nat)

inductive Quantity
  | whole (n : Int)
  | real (x : Binary64)
  deriving DecidableEq, Repr

namespace Quantity

def ofInt (n : Int) : Quantity := if isWord n then .whole n else .real (Sql.ofInt n)

def toReal : Quantity → Binary64
  | .whole n => Sql.ofInt n
  | .real x => x

/-- Computes exactly where both sides and the result are integers of 64 bits. -/
def combine (exact : Int → Int → Int) (approximate : Binary64 → Binary64 → Binary64)
    (a b : Quantity) : Quantity :=
  match a, b with
  | .whole m, .whole n =>
    if isWord (exact m n) then .whole (exact m n) else .real (approximate a.toReal b.toReal)
  | _, _ => .real (approximate a.toReal b.toReal)

instance : Sub Quantity := ⟨combine (· - ·) (· - ·)⟩
instance : Mul Quantity := ⟨combine (· * ·) (· * ·)⟩

instance : Div Quantity := ⟨combine Int.tdiv (· / ·)⟩

/-- Whether a number lies above an integer. A double counts by its integer part first, and among
equals against the double nearest to the integer. -/
def exceeds (q : Quantity) (n : Int) : Bool :=
  match q with
  | .whole m => n < m
  | .real x => n < x.truncate || (n == x.truncate && (Sql.ofInt n).lt x)

theorem whole_sub_whole {m n : Int} (h : isWord (m - n) = true) :
    (whole m - whole n : Quantity) = whole (m - n) := by
  change combine _ _ _ _ = _
  simp [combine, h]

theorem whole_mul_whole {m n : Int} (h : isWord (m * n) = true) :
    (whole m * whole n : Quantity) = whole (m * n) := by
  change combine _ _ _ _ = _
  simp [combine, h]

theorem whole_div_whole {m n : Int} (h : isWord (m.tdiv n) = true) :
    (whole m / whole n : Quantity) = whole (m.tdiv n) := by
  change combine _ _ _ _ = _
  simp [combine, h]

end Quantity

end LeaseLock.Sql
