import LeaseLock.Proofs.Number.Nearest
import Mathlib.Tactic.Linarith
import Mathlib.Tactic.Zify

namespace LeaseLock.Binary64

variable {x y : Binary64} {w d e : Nat} {r z z' : Int} {s : Bool}

theorem signUnit_eq : signUnit = 9223372036854775808 := rfl

theorem word_lt (x : Binary64) : x.word < signUnit := Nat.mod_lt _ (by decide)

theorem toNat_pack (h : w < signUnit) :
    (pack s w).bits.toNat = w + if s then signUnit else 0 := by
  simp only [pack, UInt64.toNat_ofNat', signUnit_eq] at *
  apply Nat.mod_eq_of_lt
  split <;> omega

theorem word_pack (h : w < signUnit) : (pack s w).word = w := by
  rw [word, toNat_pack h]
  simp only [signUnit_eq] at *
  split <;> omega

theorem negative_pack (h : w < signUnit) : (pack s w).negative = s := by
  rw [negative, toNat_pack h]
  simp only [signUnit_eq] at *
  cases s with
  | false => simpa using h
  | true => simp

theorem rank_pack (h : w < signUnit) : (pack s w).rank = if s then -(w : Int) else w := by
  rw [rank, negative_pack h, word_pack h]

theorem natAbs_rank (x : Binary64) : x.rank.natAbs = x.word := by
  rw [rank]
  split <;> omega

theorem isFinite_iff : x.isFinite = true ↔ x.rank.natAbs < infinityWord := by
  rw [natAbs_rank, isFinite, decide_eq_true_eq]

theorem isNaN_eq_false_iff : x.isNaN = false ↔ x.rank.natAbs ≤ infinityWord := by
  rw [natAbs_rank, isNaN, decide_eq_false_iff_not, Nat.not_lt]

theorem isNaN_of_isFinite (h : x.isFinite = true) : x.isNaN = false :=
  isNaN_eq_false_iff.mpr (Nat.le_of_lt (isFinite_iff.mp h))

theorem isInfinite_of_isFinite (h : x.isFinite = true) : x.isInfinite = false := by
  have hlt := isFinite_iff.mp h
  rw [natAbs_rank] at hlt
  simp only [isInfinite, beq_eq_false_iff_ne]
  omega

theorem rank_nonneg (h : x.negative = false) : 0 ≤ x.rank := by
  simp only [rank, h, Bool.false_eq_true, if_false]
  omega

theorem le_iff (hx : x.isNaN = false) (hy : y.isNaN = false) : x.le y = true ↔ x.rank ≤ y.rank := by
  simp [le, hx, hy]

theorem lt_iff (hx : x.isNaN = false) (hy : y.isNaN = false) : x.lt y = true ↔ x.rank < y.rank := by
  simp [lt, hx, hy]

def unitsOfRank (r : Int) : Int :=
  if r < 0 then -(unitsOfWord r.natAbs : Int) else unitsOfWord r.natAbs

def nearestRank (z : Int) (d : Nat) : Int :=
  if z < 0 then -(wordOfUnits z.natAbs d : Int) else wordOfUnits z.natAbs d

theorem unitsOfWord_zero : unitsOfWord 0 = 0 := rfl

theorem value_eq (x : Binary64) : x.value = unitsOfRank x.rank := by
  rw [value, units, unitsOfRank, natAbs_rank, rank]
  cases hneg : x.negative with
  | false =>
    have hnot : ¬(x.word : Int) < 0 := by omega
    simp only [Bool.false_eq_true, if_false, hnot]
  | true =>
    rcases Nat.eq_zero_or_pos x.word with hzero | hpositive
    · simp [hzero, unitsOfWord_zero]
    · have hlt : -(x.word : Int) < 0 := by omega
      simp only [if_true, hlt]

theorem units_eq (x : Binary64) : x.units = x.value.natAbs := by
  rw [value]
  split <;> omega

theorem natAbs_nearestRank (z : Int) (d : Nat) : (nearestRank z d).natAbs = wordOfUnits z.natAbs d := by
  rw [nearestRank]
  split <;> omega

theorem nearestRank_mono (hd : 0 < d) (he : 0 < e) (h : z * e ≤ z' * d) :
    nearestRank z d ≤ nearestRank z' e := by
  rw [nearestRank, nearestRank]
  by_cases hz : z < 0
  · by_cases hz' : z' < 0
    · have hmono : wordOfUnits z'.natAbs e ≤ wordOfUnits z.natAbs d := by
        apply wordOfUnits_mono he hd
        zify
        rw [abs_of_neg hz, abs_of_neg hz']
        linarith
      rw [if_pos hz, if_pos hz']
      omega
    · rw [if_pos hz, if_neg hz']
      omega
  · have hz' : ¬z' < 0 := by
      intro hneg
      have hlow : 0 ≤ z * e := Int.mul_nonneg (Int.not_lt.mp hz) (Int.natCast_nonneg e)
      have hhigh : z' * d < 0 := Int.mul_neg_of_neg_of_pos hneg (by omega)
      omega
    have hmono : wordOfUnits z.natAbs d ≤ wordOfUnits z'.natAbs e := by
      apply wordOfUnits_mono hd he
      zify
      rw [abs_of_nonneg (Int.not_lt.mp hz), abs_of_nonneg (Int.not_lt.mp hz')]
      exact h
    rw [if_neg hz, if_neg hz']
    omega

theorem wordOfUnits_zero (hd : 0 < d) : wordOfUnits 0 d = 0 :=
  Nat.le_zero.mp (wordOfUnits_le hd (Nat.zero_le _) (Nat.zero_le _))

theorem nearestRank_neg (z : Int) (hd : 0 < d) : nearestRank (-z) d = -nearestRank z d := by
  rcases Int.lt_trichotomy z 0 with hlt | rfl | hgt
  · have hnot : ¬-z < 0 := by omega
    rw [nearestRank, nearestRank, if_pos hlt, if_neg hnot, Int.natAbs_neg, Int.neg_neg]
  · simp [nearestRank, wordOfUnits_zero hd]
  · have hnot : ¬z < 0 := by omega
    have hlt : -z < 0 := by omega
    rw [nearestRank, nearestRank, if_pos hlt, if_neg hnot, Int.natAbs_neg]

theorem nearestRank_natCast (n d : Nat) : nearestRank n d = wordOfUnits n d := by
  rw [nearestRank, if_neg (by omega), Int.natAbs_natCast]

theorem unitsOfRank_zero : unitsOfRank 0 = 0 := by
  simp [unitsOfRank, unitsOfWord_zero]

theorem unitsOfRank_neg (r : Int) : unitsOfRank (-r) = -unitsOfRank r := by
  rcases Int.lt_trichotomy r 0 with hlt | rfl | hgt
  · have hnot : ¬-r < 0 := by omega
    rw [unitsOfRank, unitsOfRank, if_pos hlt, if_neg hnot, Int.natAbs_neg, Int.neg_neg]
  · rw [Int.neg_zero, unitsOfRank_zero, Int.neg_zero]
  · have hnot : ¬r < 0 := by omega
    have hlt : -r < 0 := by omega
    rw [unitsOfRank, unitsOfRank, if_pos hlt, if_neg hnot, Int.natAbs_neg]

theorem unitsOfRank_natCast (w : Nat) : unitsOfRank w = unitsOfWord w := by
  rw [unitsOfRank, if_neg (by omega), Int.natAbs_natCast]

theorem isFinite_pack (h : w < infinityWord) : (pack s w).isFinite = true := by
  have hlt : w < signUnit := by
    simp only [infinityWord_eq, signUnit_eq] at *
    omega
  rw [isFinite_iff, natAbs_rank, word_pack hlt]
  exact h

theorem value_pack (h : w < signUnit) : (pack false w).value = unitsOfWord w := by
  rw [value_eq, rank_pack h, if_neg Bool.false_ne_true, unitsOfRank_natCast]

theorem nearestRank_unitsOfRank (hd : 0 < d) (hr : r.natAbs ≤ infinityWord) :
    nearestRank (unitsOfRank r * d) d = r := by
  have hword (w : Nat) (hw : w ≤ infinityWord) : nearestRank (unitsOfRank w * d) d = w := by
    have hscale := wordOfUnits_mul_mul (n := unitsOfWord w) Nat.one_pos hd
    rw [Nat.one_mul, wordOfUnits_unitsOfWord hw] at hscale
    rw [unitsOfRank_natCast, ← Int.natCast_mul, nearestRank_natCast, hscale]
  obtain hpos | hneg := Int.natAbs_eq r
  · rw [hpos]
    exact hword _ hr
  · rw [hneg, unitsOfRank_neg, Int.neg_mul, nearestRank_neg _ hd, hword _ hr]

theorem nearestRank_value (hd : 0 < d) (hx : x.isNaN = false) : nearestRank (x.value * d) d = x.rank := by
  rw [value_eq]
  exact nearestRank_unitsOfRank hd (isNaN_eq_false_iff.mp hx)

theorem nearestRank_le (hd : 0 < d) (hr : r.natAbs ≤ infinityWord) (h : z ≤ unitsOfRank r * d) :
    nearestRank z d ≤ r := by
  rw [← nearestRank_unitsOfRank hd hr]
  exact nearestRank_mono hd hd (Int.mul_le_mul_of_nonneg_right h (Int.natCast_nonneg d))

theorem le_nearestRank (hd : 0 < d) (hr : r.natAbs ≤ infinityWord) (h : unitsOfRank r * d ≤ z) :
    r ≤ nearestRank z d := by
  rw [← nearestRank_unitsOfRank hd hr]
  exact nearestRank_mono hd hd (Int.mul_le_mul_of_nonneg_right h (Int.natCast_nonneg d))

theorem value_le_iff (hx : x.isNaN = false) (hy : y.isNaN = false) :
    x.value ≤ y.value ↔ x.rank ≤ y.rank := by
  have hkeep {a b : Binary64} (hb : b.isNaN = false) (h : a.value ≤ b.value)
      (ha : a.isNaN = false) : a.rank ≤ b.rank := by
    rw [← nearestRank_value Nat.one_pos ha, ← nearestRank_value Nat.one_pos hb]
    exact nearestRank_mono Nat.one_pos Nat.one_pos (by omega)
  constructor
  · exact fun h => hkeep hy h hx
  · intro h
    rcases Int.le_total x.value y.value with hle | hle
    · exact hle
    · have hback := hkeep hx hle hy
      have heq : x.rank = y.rank := by omega
      rw [value_eq, value_eq y, heq]

theorem value_of_rank_nonneg (h : 0 ≤ x.rank) : x.value = x.units := by
  rw [units_eq, value_eq, unitsOfRank, if_neg (Int.not_lt.mpr h), Int.natAbs_natCast]

theorem units_le_units (h0 : 0 ≤ x.rank) (h : x.rank ≤ y.rank) (hy : y.isNaN = false) :
    x.units ≤ y.units := by
  have hx : x.isNaN = false := by
    rw [isNaN_eq_false_iff] at *
    omega
  have hvalue := (value_le_iff hx hy).mpr h
  rw [value_of_rank_nonneg h0, value_of_rank_nonneg (Int.le_trans h0 h)] at hvalue
  exact Int.ofNat_le.mp hvalue

theorem rank_ofUnits (s : Bool) (n : Nat) (hd : 0 < d) :
    (ofUnits s n d).rank = nearestRank (if s then -(n : Int) else n) d := by
  have hword := wordOfUnits_le_infinityWord n d
  have hlt : wordOfUnits n d < signUnit := by
    simp only [infinityWord_eq, signUnit_eq] at *
    omega
  rw [ofUnits, rank_pack hlt]
  cases s with
  | false => simp [nearestRank_natCast]
  | true => simp [nearestRank_neg _ hd, nearestRank_natCast]

theorem isNaN_of_rank_eq (h : x.rank = nearestRank z d) : x.isNaN = false := by
  rw [isNaN_eq_false_iff, h, natAbs_nearestRank]
  exact wordOfUnits_le_infinityWord _ _

theorem rank_mul (hx : x.isFinite = true) (hy : y.isFinite = true) :
    (x * y).rank = nearestRank (x.value * y.value) one := by
  have hproduct : x * y = ofUnits (x.negative != y.negative) (x.units * y.units) one := by
    change mul x y = _
    simp [mul, isNaN_of_isFinite hx, isNaN_of_isFinite hy, isInfinite_of_isFinite hx,
      isInfinite_of_isFinite hy]
  rw [hproduct, rank_ofUnits _ _ pos_one, value, value]
  congr 1
  cases x.negative <;> cases y.negative <;> simp

theorem rank_add (hx : x.isFinite = true) (hy : y.isFinite = true) :
    (x + y).rank = nearestRank (x.value + y.value) 1 := by
  change (add x y).rank = _
  simp only [add, isNaN_of_isFinite hx, isNaN_of_isFinite hy, isInfinite_of_isFinite hx,
    isInfinite_of_isFinite hy, Bool.or_self, Bool.false_eq_true, if_false]
  split
  · rename_i hzero
    rw [hzero, zero, rank_pack (by decide)]
    split <;> rfl
  · rw [rank_ofUnits _ _ Nat.one_pos]
    congr 1
    by_cases hneg : x.value + y.value < 0
    · simp only [hneg, decide_true, if_true]
      omega
    · simp only [hneg, decide_false, Bool.false_eq_true, if_false]
      omega

theorem rank_neg (hx : x.isNaN = false) : (-x).rank = -x.rank := by
  change (neg x).rank = _
  rw [neg, hx, if_neg Bool.false_ne_true, rank_pack x.word_lt, rank]
  cases x.negative <;> simp

theorem isFinite_neg (hx : x.isFinite = true) : (-x).isFinite = true := by
  rw [isFinite_iff, rank_neg (isNaN_of_isFinite hx), Int.natAbs_neg]
  exact isFinite_iff.mp hx

theorem value_neg (hx : x.isNaN = false) : (-x).value = -x.value := by
  rw [value_eq, value_eq x, rank_neg hx, unitsOfRank_neg]

theorem rank_sub (hx : x.isFinite = true) (hy : y.isFinite = true) :
    (x - y).rank = nearestRank (x.value - y.value) 1 := by
  change (x + -y).rank = _
  rw [rank_add hx (isFinite_neg hy), value_neg (isNaN_of_isFinite hy), Int.sub_eq_add_neg]

theorem rank_div (hx : x.isFinite = true) (hy : y.isFinite = true) (hxs : x.negative = false)
    (hys : y.negative = false) (hpos : 0 < y.units) :
    (x / y).rank = wordOfUnits (x.units * one) y.units := by
  have hquotient : x / y = ofUnits false (x.units * one) y.units := by
    change div x y = _
    simp only [div, isNaN_of_isFinite hx, isNaN_of_isFinite hy, isInfinite_of_isFinite hx,
      isInfinite_of_isFinite hy, hxs, hys, Bool.or_self, Bool.false_eq_true, if_false,
      bne_self_eq_false, Nat.ne_of_gt hpos]
  rw [hquotient, rank_ofUnits _ _ hpos]
  exact nearestRank_natCast _ _

theorem negative_ofUnits (s : Bool) (n d : Nat) : (ofUnits s n d).negative = s := by
  have hword := wordOfUnits_le_infinityWord n d
  apply negative_pack
  simp only [infinityWord_eq, signUnit_eq] at *
  omega

theorem rank_ofNat (n : Nat) : (ofNat n).rank = wordOfUnits (n * one) 1 := by
  rw [ofNat, rank_ofUnits _ _ Nat.one_pos]
  exact nearestRank_natCast _ _

theorem unitsOfWord_eq_units (x : Binary64) (h : x.rank = w) : unitsOfWord w = x.units := by
  rw [units_eq, value_eq, h, unitsOfRank_natCast, Int.natAbs_natCast]

theorem wordOfUnits_ofNat_le {n : Nat} (h : n ≤ 2 ^ 64) :
    wordOfUnits (n * one) 1 ≤ 1087 * fieldUnit := by
  have hlimit : unitsOfWord (1087 * fieldUnit) = 2 ^ 64 * one := by decide +kernel
  apply wordOfUnits_le Nat.one_pos (by decide)
  rw [Nat.mul_one, hlimit]
  exact Nat.mul_le_mul_right one h

theorem isFinite_ofNat {n : Nat} (h : n ≤ 2 ^ 64) : (ofNat n).isFinite = true := by
  rw [isFinite_iff, rank_ofNat, Int.natAbs_natCast]
  exact Nat.lt_of_le_of_lt (wordOfUnits_ofNat_le h) (by decide)

theorem units_ofNat {n : Nat} (h : n < 2 ^ 53) : (ofNat n).units = n * one := by
  have hfinite : wordOfUnits (n * one) 1 < infinityWord :=
    Nat.lt_of_le_of_lt (wordOfUnits_ofNat_le (by omega)) (by decide)
  have hplace : lastPlace (n * one) 1 ≤ 53 + 1021 := by
    apply lastPlace_le_of_lt_one Nat.one_pos
    rw [Nat.one_mul]
    exact Nat.mul_lt_mul_of_pos_right h pos_one
  have hdvd : 2 ^ lastPlace (n * one) 1 ∣ n * one := by
    obtain ⟨k, hk⟩ : ∃ k, k = 1074 := ⟨_, rfl⟩
    rw [one_eq_two_pow hk] at *
    exact Nat.dvd_trans (Nat.pow_dvd_pow 2 (by omega)) (Nat.dvd_mul_left _ n)
  rw [← unitsOfWord_eq_units _ (rank_ofNat n)]
  exact unitsOfWord_wordOfUnits_of_dvd hfinite hdvd

theorem value_ofNat {n : Nat} (h : n < 2 ^ 53) : (ofNat n).value = (n * one : Nat) := by
  rw [value, show (ofNat n).negative = false from negative_ofUnits _ _ _, if_neg Bool.false_ne_true,
    units_ofNat h]

theorem negative_mul (hx : x.negative = false) (hy : y.negative = false) :
    (x * y).negative = false := by
  change (mul x y).negative = false
  simp only [mul, hx, hy, bne_self_eq_false]
  split
  · rfl
  · split
    · split <;> rfl
    · exact negative_ofUnits _ _ _

theorem negative_div (hx : x.negative = false) (hy : y.negative = false) :
    (x / y).negative = false := by
  change (div x y).negative = false
  simp only [div, hx, hy, bne_self_eq_false]
  split
  · rfl
  · split
    · split <;> rfl
    · split
      · rfl
      · split
        · split <;> rfl
        · exact negative_ofUnits _ _ _

theorem negative_add (hx : x.negative = false) (hy : y.negative = false) :
    (x + y).negative = false := by
  have hxv : 0 ≤ x.value := by simp [value, hx]
  have hyv : 0 ≤ y.value := by simp [value, hy]
  have hsum : ¬x.value + y.value < 0 := by omega
  change (add x y).negative = false
  simp only [add, hx, hy, bne_self_eq_false, Bool.and_false, Bool.false_eq_true, if_false, hsum,
    decide_false]
  split
  · rfl
  · split
    · exact hx
    · split
      · exact hy
      · split
        · rfl
        · exact negative_ofUnits _ _ _

theorem powFrom_induction {P : Binary64 → Nat → Prop}
    (hmul : ∀ x y m n, P x m → P y n → P (x * y) (m * n)) {acc base : Binary64} {m n : Nat}
    (hacc : P acc m) (hbase : P base n) (k : Nat) : P (powFrom acc base k) (m * n ^ k) := by
  have hnext {acc base : Binary64} {m n : Nat} (hacc : P acc m) (hbase : P base n) (k : Nat) :
      P (if k % 2 = 1 then acc * base else acc) (m * n ^ (k % 2)) := by
    by_cases hodd : k % 2 = 1
    · rw [if_pos hodd, hodd, Nat.pow_one]
      exact hmul _ _ _ _ hacc hbase
    · rw [if_neg hodd, Nat.mod_two_ne_one.mp hodd, Nat.pow_zero, Nat.mul_one]
      exact hacc
  induction k using Nat.strong_induction_on generalizing acc base m n with
  | _ k ih =>
    rw [powFrom]
    by_cases hlast : k / 2 = 0
    · have hk : m * n ^ k = m * n ^ (k % 2) := by rw [Nat.mod_eq_of_lt (show k < 2 by omega)]
      rw [if_pos hlast, hk]
      exact hnext hacc hbase k
    · have hk : m * n ^ k = m * n ^ (k % 2) * (n * n) ^ (k / 2) := by
        rw [Nat.mul_assoc, ← Nat.pow_two, ← Nat.pow_mul, ← Nat.pow_add, Nat.mod_add_div]
      rw [if_neg hlast, hk]
      exact ih _ (by omega) (hnext hacc hbase k) (hmul _ _ _ _ hbase hbase)

theorem negative_pow (hx : x.negative = false) (n : Nat) : (x.pow n).negative = false :=
  powFrom_induction (P := fun x _ => x.negative = false) (m := 1) (n := 1)
    (fun _ _ _ _ => negative_mul) (negative_ofUnits _ _ _) hx n

theorem isFinite_zero : (0 : Binary64).isFinite = true := isFinite_ofNat (by decide)

theorem rank_zero : (0 : Binary64).rank = 0 := by
  have hrank : (0 : Binary64).rank = wordOfUnits (0 * one) 1 := rank_ofNat 0
  rw [hrank, Nat.zero_mul, wordOfUnits_zero Nat.one_pos]
  rfl

theorem value_zero : (0 : Binary64).value = 0 := by
  rw [value_eq, rank_zero, unitsOfRank_zero]

theorem isFinite_one : (1 : Binary64).isFinite = true := isFinite_ofNat (by decide)

theorem value_one : (1 : Binary64).value = one := by
  have hvalue : (1 : Binary64).value = (1 * one : Nat) := value_ofNat (n := 1) (by decide)
  rw [hvalue, Nat.one_mul]

theorem isFinite_two : (2 : Binary64).isFinite = true := isFinite_ofNat (by decide)

theorem value_two : (2 : Binary64).value = 2 * one := by
  have hvalue : (2 : Binary64).value = (2 * one : Nat) := value_ofNat (n := 2) (by decide)
  rw [hvalue, Int.natCast_mul, Nat.cast_ofNat]

theorem isFinite_of_between (hx : x.isFinite = true) (hy : y.isFinite = true) {m : Binary64}
    (hlow : x.rank ≤ m.rank) (hhigh : m.rank ≤ y.rank) : m.isFinite = true := by
  rw [isFinite_iff] at *
  omega

theorem rank_le_iff (hx : x.isFinite = true) (hy : y.isFinite = true) :
    x.rank ≤ y.rank ↔ x.value ≤ y.value :=
  (value_le_iff (isNaN_of_isFinite hx) (isNaN_of_isFinite hy)).symm

theorem rank_nonneg_iff (hx : x.isFinite = true) : 0 ≤ x.rank ↔ 0 ≤ x.value := by
  have hzero := rank_le_iff isFinite_zero hx
  rwa [rank_zero, value_zero] at hzero

theorem between_of_nearest {m : Binary64} (hm : m.rank = nearestRank z d) (hd : 0 < d)
    (hx : x.isFinite = true) (hy : y.isFinite = true) (hlow : x.value * d ≤ z)
    (hhigh : z ≤ y.value * d) :
    m.isFinite = true ∧ x.value ≤ m.value ∧ m.value ≤ y.value := by
  rw [value_eq] at hlow hhigh
  have hxm := le_nearestRank hd (Nat.le_of_lt (isFinite_iff.mp hx)) hlow
  have hmy := nearestRank_le hd (Nat.le_of_lt (isFinite_iff.mp hy)) hhigh
  rw [← hm] at hxm hmy
  have hfinite := isFinite_of_between hx hy hxm hmy
  exact ⟨hfinite, (rank_le_iff hx hfinite).mp hxm, (rank_le_iff hfinite hy).mp hmy⟩

theorem le_iff_value (hx : x.isFinite = true) (hy : y.isFinite = true) :
    x.le y = true ↔ x.value ≤ y.value := by
  rw [le_iff (isNaN_of_isFinite hx) (isNaN_of_isFinite hy), rank_le_iff hx hy]

theorem between_zero_one_iff : (le 0 x && x.le 1) = true ↔
    x.isFinite = true ∧ 0 ≤ x.value ∧ x.value ≤ one := by
  have hvalues (hx : x.isFinite = true) :
      (le 0 x && x.le 1) = true ↔ 0 ≤ x.value ∧ x.value ≤ one := by
    rw [Bool.and_eq_true, le_iff_value isFinite_zero hx, le_iff_value hx isFinite_one, value_zero,
      value_one]
  constructor
  · intro h
    have hfinite : x.isFinite = true := by
      simp only [le, Bool.and_eq_true, decide_eq_true_eq] at h
      exact isFinite_of_between isFinite_zero isFinite_one h.1.2 h.2.2
    exact ⟨hfinite, (hvalues hfinite).mp h⟩
  · rintro ⟨hfinite, h⟩
    exact (hvalues hfinite).mpr h

theorem one_le_iff : (le 1 x && x.isFinite) = true ↔ x.isFinite = true ∧ one ≤ x.value := by
  rw [Bool.and_eq_true, And.comm]
  apply and_congr_right
  intro hfinite
  rw [le_iff_value isFinite_one hfinite, value_one]

theorem value_sub_neg (hx : x.isFinite = true) (h0 : 0 ≤ x.value) (h1 : x.value ≤ one) :
    (x - -x).isFinite = true ∧ (x - -x).value = 2 * x.value := by
  have hrank := rank_sub hx (isFinite_neg hx)
  rw [value_neg (isNaN_of_isFinite hx), Int.sub_neg, ← Int.two_mul] at hrank
  obtain ⟨hfinite, hnonneg, -⟩ := between_of_nearest hrank Nat.one_pos isFinite_zero isFinite_two
    (by rw [value_zero]; omega) (by rw [value_two]; omega)
  rw [value_zero] at hnonneg
  refine ⟨hfinite, ?_⟩
  rw [value_of_rank_nonneg ((rank_nonneg_iff hx).mpr h0)] at hrank ⊢
  rw [value_of_rank_nonneg ((rank_nonneg_iff hfinite).mpr hnonneg)]
  have hword : (x - -x).rank = wordOfUnits (2 * x.units) 1 := by
    rw [hrank]
    exact nearestRank_natCast _ _
  have hlt : wordOfUnits (2 * unitsOfWord x.word) 1 < infinityWord := by
    have hbound := isFinite_iff.mp hfinite
    rwa [hword, Int.natAbs_natCast] at hbound
  have hdouble := unitsOfWord_wordOfUnits_two_mul hlt
  change unitsOfWord (wordOfUnits (2 * x.units) 1) = 2 * x.units at hdouble
  rw [unitsOfWord_eq_units _ hword] at hdouble
  rw [hdouble]
  rfl

end LeaseLock.Binary64
