import LeaseLock.Proofs.Number.Binary64
import Mathlib.Algebra.Group.Nat.Defs

namespace LeaseLock.Binary64

structure Reaches (x : Binary64) (m : Nat) : Prop where
  isNaN_eq : x.isNaN = false
  least_le : (m * one : Nat) ≤ x.value

structure Counts (x : Binary64) (m : Nat) : Prop extends x.Reaches (min m (2 ^ 52)) where
  value_of_le : m ≤ 2 ^ 52 → x.value = (m * one : Nat)

variable {x y : Binary64} {m n k : Nat}

theorem Reaches.value_nonneg (hx : x.Reaches m) : 0 ≤ x.value :=
  Int.le_trans (Int.natCast_nonneg _) hx.least_le

theorem Reaches.value_pos (hx : x.Reaches m) (hm : 0 < m) : 0 < x.value := by
  have hleast := hx.least_le
  have hpos : 0 < m * one := Nat.mul_pos hm pos_one
  omega

theorem units_pos (h : 0 < x.value) : 0 < x.units := by
  rw [units_eq]
  omega

theorem negative_of_pos (h : 0 < x.value) : x.negative = false := by
  rw [Bool.eq_false_iff]
  intro hneg
  rw [value, if_pos hneg] at h
  omega

theorem isInfinite_of_not_isFinite (hx : x.isNaN = false) (h : ¬x.isFinite = true) :
    x.isInfinite = true := by
  rw [isFinite_iff] at h
  rw [isNaN_eq_false_iff] at hx
  rw [isInfinite, beq_iff_eq, ← natAbs_rank]
  omega

theorem mul_of_infinite (hx : x.isNaN = false) (hy : y.isNaN = false) (hxpos : 0 < x.value)
    (hypos : 0 < y.value) (h : ¬(x.isFinite = true ∧ y.isFinite = true)) :
    x * y = infinite false := by
  have hinfinite : (x.isInfinite || y.isInfinite) = true := by
    rw [Bool.or_eq_true]
    by_cases hfinite : x.isFinite = true
    · exact .inr (isInfinite_of_not_isFinite hy fun hy' => h ⟨hfinite, hy'⟩)
    · exact .inl (isInfinite_of_not_isFinite hx hfinite)
  have hunits : ¬(x.units = 0 ∨ y.units = 0) := by
    have hx' := units_pos hxpos
    have hy' := units_pos hypos
    omega
  change mul x y = _
  simp only [mul, hx, hy, negative_of_pos hxpos, negative_of_pos hypos, hinfinite, Bool.or_self,
    Bool.false_eq_true, if_false, if_true, bne_self_eq_false, Bool.or_eq_true, decide_eq_true_eq,
    hunits]

theorem isFinite_of_mul (hx : x.isNaN = false) (hy : y.isNaN = false) (hxpos : 0 < x.value)
    (hypos : 0 < y.value) (h : (x * y).isFinite = true) : x.isFinite = true ∧ y.isFinite = true := by
  by_contra hbeyond
  rw [mul_of_infinite hx hy hxpos hypos hbeyond] at h
  exact absurd h (by decide)

theorem isFinite_of_value_le (hx : x.Reaches m) (hn : n ≤ 2 ^ 52) (h : x.value ≤ (n * one : Nat)) :
    x.isFinite = true := by
  have hlast : (ofNat n).isFinite = true := isFinite_ofNat (by omega)
  have hge : (0 : Binary64).value ≤ x.value := by
    rw [value_zero]
    exact hx.value_nonneg
  rw [← value_ofNat (by omega), value_le_iff hx.isNaN_eq (isNaN_of_isFinite hlast)] at h
  rw [value_le_iff (isNaN_of_isFinite isFinite_zero) hx.isNaN_eq] at hge
  exact isFinite_of_between isFinite_zero hlast hge h

theorem nearestRank_whole (hm : m ≤ 2 ^ 52) :
    nearestRank (m * one * one : Nat) one = (ofNat m).rank := by
  have hself := nearestRank_value pos_one (isNaN_of_isFinite (isFinite_ofNat (n := m) (by omega)))
  rwa [value_ofNat (by omega), ← Int.natCast_mul] at hself

theorem reaches_infinite (hk : k ≤ 2 ^ 52) : (infinite false).Reaches k := by
  have hunits : 2 ^ 52 * one ≤ unitsOfWord infinityWord := by decide +kernel
  constructor
  · decide
  · rw [infinite, value_pack (by decide), Int.ofNat_le]
    exact Nat.le_trans (Nat.mul_le_mul_right one hk) hunits

theorem reaches_mul (hx : x.Reaches m) (hy : y.Reaches n) (hm : 0 < m) (hn : 0 < n)
    (hk : k ≤ m * n) (hlimit : k ≤ 2 ^ 52) : (x * y).Reaches k := by
  by_cases hfinite : x.isFinite = true ∧ y.isFinite = true
  · have hrank := rank_mul hfinite.1 hfinite.2
    have hnan := isNaN_of_rank_eq hrank
    have hlast : (ofNat k).isFinite = true := isFinite_ofNat (by omega)
    have hproduct : ((k * one * one : Nat) : Int) ≤ x.value * y.value := by
      have hvalues := Int.mul_le_mul hx.least_le hy.least_le (Int.natCast_nonneg _) hx.value_nonneg
      apply Int.le_trans _ hvalues
      rw [← Int.natCast_mul, Int.ofNat_le, Nat.mul_mul_mul_comm, Nat.mul_assoc]
      exact Nat.mul_le_mul_right _ hk
    refine ⟨hnan, ?_⟩
    rw [← value_ofNat (by omega), value_le_iff (isNaN_of_isFinite hlast) hnan, hrank,
      ← nearestRank_whole hlimit]
    apply nearestRank_mono pos_one pos_one
    exact Int.mul_le_mul_of_nonneg_right hproduct (Int.natCast_nonneg _)
  · rw [mul_of_infinite hx.isNaN_eq hy.isNaN_eq (hx.value_pos hm) (hy.value_pos hn) hfinite]
    exact reaches_infinite hlimit

theorem reaches_one : (1 : Binary64).Reaches 1 := by
  constructor
  · exact isNaN_of_isFinite isFinite_one
  · rw [value_one, Nat.one_mul]

theorem reaches_pow (hx : x.Reaches 1) (k : Nat) : (x.pow k).Reaches 1 :=
  powFrom_induction (P := fun x _ => x.Reaches 1) (m := 1) (n := 1)
    (fun _ _ _ _ hx hy => reaches_mul hx hy Nat.one_pos Nat.one_pos (by decide) (by decide))
    reaches_one hx k

theorem counts_of_value (hx : x.isFinite = true) (h : x.value = (m * one : Nat)) : x.Counts m := by
  refine ⟨⟨isNaN_of_isFinite hx, ?_⟩, fun _ => h⟩
  rw [h, Int.ofNat_le]
  exact Nat.mul_le_mul_right one (Nat.min_le_left _ _)

theorem Counts.isFinite (hx : x.Counts m) (hm : m ≤ 2 ^ 52) : x.isFinite = true :=
  isFinite_of_value_le hx.toReaches hm (Int.le_of_eq (hx.value_of_le hm))

theorem min_mul_le {a b k : Nat} (ha : 0 < a) (hb : 0 < b) :
    min (a * b) k ≤ min a k * min b k := by
  rcases Nat.eq_zero_or_pos k with rfl | hk
  · omega
  by_cases hak : a ≤ k
  · by_cases hbk : b ≤ k
    · rw [Nat.min_eq_left hak, Nat.min_eq_left hbk]
      exact Nat.min_le_left _ _
    · rw [Nat.min_eq_right (Nat.le_of_not_le hbk)]
      exact Nat.le_trans (Nat.min_le_right _ _) (Nat.le_mul_of_pos_left k (by omega))
  · rw [Nat.min_eq_right (Nat.le_of_not_le hak)]
    exact Nat.le_trans (Nat.min_le_right _ _) (Nat.le_mul_of_pos_right k (by omega))

theorem counts_mul (hx : x.Counts m) (hy : y.Counts n) (hm : 0 < m) (hn : 0 < n) :
    (x * y).Counts (m * n) := by
  constructor
  · exact reaches_mul hx.toReaches hy.toReaches (by omega) (by omega) (min_mul_le hm hn)
      (Nat.min_le_right _ _)
  · intro hle
    have hm' : m ≤ 2 ^ 52 := Nat.le_trans (Nat.le_mul_of_pos_right m hn) hle
    have hn' : n ≤ 2 ^ 52 := Nat.le_trans (Nat.le_mul_of_pos_left n hm) hle
    have hexact : (x * y).rank = (ofNat (m * n)).rank := by
      rw [rank_mul (hx.isFinite hm') (hy.isFinite hn'), hx.value_of_le hm', hy.value_of_le hn',
        ← nearestRank_whole hle, ← Int.natCast_mul, Nat.mul_mul_mul_comm, Nat.mul_assoc (m * n)]
    rw [value_eq, hexact, ← value_eq, value_ofNat (by omega)]

theorem counts_pow (hx : x.Counts n) (hn : 0 < n) (k : Nat) : (x.pow k).Counts (n ^ k) := by
  have hone : (1 : Binary64).Counts 1 := by
    apply counts_of_value isFinite_one
    rw [value_one, Nat.one_mul]
  have hpow := powFrom_induction (P := fun x m => 0 < m ∧ x.Counts m)
    (fun _ _ _ _ hx hy => ⟨Nat.mul_pos hx.1 hy.1, counts_mul hx.2 hy.2 hx.1 hy.1⟩)
    ⟨Nat.one_pos, hone⟩ ⟨hn, hx⟩ k
  rw [Nat.one_mul] at hpow
  exact hpow.2

end LeaseLock.Binary64
