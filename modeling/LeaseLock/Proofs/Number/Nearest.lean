import LeaseLock.Number.Binary64
import Mathlib.Algebra.Group.Nat.Defs

/-!
Rounding of a magnitude to the nearest double. Magnitudes are counted in units of `2 ^ -1074`. Main
statements: rounding keeps the order, leaves the magnitudes of doubles as they are, and is off by at
most half a unit of the last place.
-/

namespace LeaseLock

section

variable {n d m e : Nat}

theorem roundDiv_half {q : Nat} (hd : 0 < d) (h : 2 * n = 2 * (q * d) + d) :
    roundDiv n d = q + q % 2 := by
  have hq : n / d = q := by
    apply Nat.div_eq_of_lt_le
    · omega
    · rw [Nat.succ_mul]
      omega
  have hdiv := Nat.div_add_mod n d
  have hcomm := Nat.mul_comm q d
  rw [hq] at hdiv
  have hmod : 2 * (n % d) = d := by omega
  simp [roundDiv, hq, hmod]

theorem roundDiv_eq_of_near {q : Nat} (hd : 0 < d) (hlow : 2 * (q * d) < 2 * n + d)
    (hhigh : 2 * n < 2 * (q * d) + d) : roundDiv n d = q := by
  have hle := roundDiv_mul_le n d hd
  have hge := le_roundDiv_mul n d hd
  rcases Nat.lt_trichotomy (roundDiv n d) q with hlt | heq | hgt
  · have hmul := Nat.mul_le_mul_right d hlt
    rw [Nat.succ_mul] at hmul
    omega
  · exact heq
  · have hmul := Nat.mul_le_mul_right d hgt
    rw [Nat.succ_mul] at hmul
    omega

theorem roundDiv_mono (hd : 0 < d) (he : 0 < e) (h : n * e ≤ m * d) :
    roundDiv n d ≤ roundDiv m e := by
  have hlow := roundDiv_mul_le n d hd
  have hhigh := le_roundDiv_mul m e he
  apply Nat.le_of_not_lt
  intro hlt
  obtain ⟨k, hk⟩ : ∃ k, roundDiv n d = roundDiv m e + 1 + k := ⟨_, (Nat.add_sub_of_le hlt).symm⟩
  generalize hq : roundDiv m e = q at *
  rw [hk] at hlow
  -- both quotients have to lie at `q + 1 / 2`
  have hn : 2 * (q * d) + d + 2 * (k * d) ≤ 2 * n := by
    have hsum : (q + 1 + k) * d = q * d + d + k * d := by rw [Nat.add_mul, Nat.succ_mul]
    omega
  have hne := Nat.mul_le_mul_right e hn
  have hmd := Nat.mul_le_mul_right d hhigh
  have hqde : q * d * e = q * e * d := Nat.mul_right_comm q d e
  have hde : d * e = e * d := Nat.mul_comm d e
  simp only [Nat.add_mul, Nat.mul_assoc 2] at hne hmd
  have hkde : 0 = k * d * e := by omega
  have hk0 : k = 0 := by
    apply Nat.eq_zero_of_not_pos
    intro hpos
    have hpositive := Nat.mul_pos (Nat.mul_pos hpos hd) he
    omega
  subst hk0
  have hnhalf : 2 * n = 2 * (q * d) + d := by
    apply Nat.eq_of_mul_eq_mul_right he
    simp only [Nat.add_mul, Nat.mul_assoc 2]
    omega
  have hmhalf : 2 * m = 2 * (q * e) + e := by
    apply Nat.eq_of_mul_eq_mul_right hd
    simp only [Nat.add_mul, Nat.mul_assoc 2]
    omega
  have hfirst := roundDiv_half hd hnhalf
  have hsecond := roundDiv_half he hmhalf
  omega

end

namespace Binary64

variable {n d m e shift places v w : Nat}

theorem fieldUnit_eq : fieldUnit = 4503599627370496 := rfl

theorem infinityWord_eq : infinityWord = 2047 * 4503599627370496 := rfl

theorem one_eq : one = 2 ^ 1074 := by decide +kernel

theorem one_eq_two_pow {k : Nat} (h : k = 1074) : one = 2 ^ k := by rw [h, one_eq]

theorem pos_one : 0 < one := by
  obtain ⟨k, hk⟩ : ∃ k, k = 1074 := ⟨_, rfl⟩
  rw [one_eq_two_pow hk]
  exact Nat.two_pow_pos k

def IsPlaced (shift places : Nat) : Prop :=
  places ≤ 2 * fieldUnit ∧ (shift = 0 ∨ fieldUnit ≤ places)

theorem unitsOfWord_placed (h : IsPlaced shift places) :
    unitsOfWord (shift * fieldUnit + places) = places * 2 ^ shift := by
  obtain ⟨hle, hleast⟩ := h
  simp only [unitsOfWord, Nat.pow_eq]
  rcases Nat.lt_or_ge places fieldUnit with hlow | hlow
  · obtain rfl : shift = 0 := by omega
    simp [hlow]
  · have hlarge : ¬shift * fieldUnit + places < fieldUnit := by omega
    rw [if_neg hlarge]
    rcases Nat.lt_or_ge places (2 * fieldUnit) with hhigh | hhigh
    · have hfield : (shift * fieldUnit + places) / fieldUnit = shift + 1 := by
        apply Nat.div_eq_of_lt_le
        · rw [Nat.succ_mul]
          omega
        · rw [Nat.succ_mul, Nat.succ_mul]
          omega
      have hdiv := Nat.div_add_mod (shift * fieldUnit + places) fieldUnit
      rw [hfield, Nat.mul_comm, Nat.succ_mul] at hdiv
      have hfraction : fieldUnit + (shift * fieldUnit + places) % fieldUnit = places := by omega
      rw [hfield, hfraction, Nat.add_sub_cancel]
    · obtain rfl : places = 2 * fieldUnit := by omega
      rw [← Nat.add_mul, Nat.mul_mod_left, Nat.mul_div_cancel _ (by decide)]
      have hshift : shift + 2 - 1 = shift + 1 := rfl
      rw [hshift, Nat.add_zero, Nat.pow_succ, Nat.mul_comm 2 fieldUnit, Nat.mul_assoc,
        Nat.mul_comm 2]

def lastPlace (n d : Nat) : Nat := (n / d).log2 - 52

theorem lt_lastPlace (hd : 0 < d) : n < d * 2 ^ (lastPlace n d + 53) := by
  have hlog := Nat.lt_log2_self (n := n / d)
  have hpow : 2 ^ ((n / d).log2 + 1) ≤ 2 ^ (lastPlace n d + 53) := by
    apply Nat.pow_le_pow_right (by decide)
    simp only [lastPlace]
    omega
  rw [Nat.mul_comm]
  exact (Nat.div_lt_iff_lt_mul hd).mp (Nat.lt_of_lt_of_le hlog hpow)

theorem lastPlace_le (hd : 0 < d) (h : 0 < lastPlace n d) : d * 2 ^ (lastPlace n d + 52) ≤ n := by
  simp only [lastPlace] at *
  have hpositive : n / d ≠ 0 := by
    intro hzero
    rw [hzero] at h
    exact absurd h (by decide)
  have hlog := Nat.log2_self_le hpositive
  rw [Nat.sub_add_cancel (by omega), Nat.mul_comm]
  exact (Nat.le_div_iff_mul_le hd).mp hlog

theorem lastPlace_le_of_lt {k : Nat} (hd : 0 < d) (h : n < d * 2 ^ (k + 53)) : lastPlace n d ≤ k := by
  have hquotient : n / d < 2 ^ (k + 53) := by
    rw [Nat.div_lt_iff_lt_mul hd, Nat.mul_comm]
    exact h
  rw [lastPlace]
  rcases Nat.eq_zero_or_pos (n / d) with hzero | hpositive
  · simp [hzero]
  · have hlog := (Nat.log2_lt (by omega)).mpr hquotient
    omega

theorem lastPlace_le_of_lt_one {k : Nat} (hd : 0 < d) (h : n < d * (2 ^ k * one)) :
    lastPlace n d ≤ k + 1021 := by
  obtain ⟨j, hj⟩ : ∃ j, j = 1074 := ⟨_, rfl⟩
  apply lastPlace_le_of_lt hd
  rwa [one_eq_two_pow hj, ← Nat.pow_add, show k + j = k + 1021 + 53 by omega] at h

theorem lastPlace_mono (hd : 0 < d) (he : 0 < e) (h : n * e ≤ m * d) :
    lastPlace n d ≤ lastPlace m e := by
  have hquotient : n / d ≤ m / e := by
    rw [Nat.le_div_iff_mul_le he]
    apply Nat.le_of_mul_le_mul_right _ hd
    calc n / d * e * d = n / d * d * e := Nat.mul_right_comm _ _ _
      _ ≤ n * e := Nat.mul_le_mul_right e (Nat.div_mul_le_self n d)
      _ ≤ m * d := h
  rcases Nat.eq_zero_or_pos (n / d) with hzero | hpositive
  · simp [lastPlace, hzero]
  · apply Nat.sub_le_sub_right
    rw [Nat.le_log2 (by omega)]
    exact Nat.le_trans (Nat.log2_self_le (by omega)) hquotient

def lastPlaces (n d : Nat) : Nat := roundDiv n (d * 2 ^ lastPlace n d)

theorem isPlaced_lastPlaces (hd : 0 < d) : IsPlaced (lastPlace n d) (lastPlaces n d) := by
  have hweight : 0 < d * 2 ^ lastPlace n d := Nat.mul_pos hd (Nat.two_pow_pos _)
  have hup (k : Nat) : d * 2 ^ (lastPlace n d + k) = 2 ^ k * (d * 2 ^ lastPlace n d) := by
    rw [Nat.pow_add, ← Nat.mul_assoc, Nat.mul_comm]
  constructor
  · have hquotient : n / (d * 2 ^ lastPlace n d) < 2 ^ 53 := by
      rw [Nat.div_lt_iff_lt_mul hweight, ← hup]
      exact lt_lastPlace hd
    have hround := roundDiv_le n (d * 2 ^ lastPlace n d)
    simp only [lastPlaces, fieldUnit_eq]
    omega
  · rcases Nat.eq_zero_or_pos (lastPlace n d) with hzero | hpositive
    · exact .inl hzero
    · right
      have hquotient : 2 ^ 52 ≤ n / (d * 2 ^ lastPlace n d) := by
        rw [Nat.le_div_iff_mul_le hweight, ← hup]
        exact lastPlace_le hd hpositive
      exact Nat.le_trans hquotient (div_le_roundDiv _ _)

theorem wordOfUnits_eq (n d : Nat) :
    wordOfUnits n d = min (lastPlace n d * fieldUnit + lastPlaces n d) infinityWord := rfl

theorem wordOfUnits_le_infinityWord (n d : Nat) : wordOfUnits n d ≤ infinityWord :=
  Nat.min_le_right _ _

theorem wordOfUnits_mono (hd : 0 < d) (he : 0 < e) (h : n * e ≤ m * d) :
    wordOfUnits n d ≤ wordOfUnits m e := by
  suffices hword : lastPlace n d * fieldUnit + lastPlaces n d ≤
      lastPlace m e * fieldUnit + lastPlaces m e by
    rw [wordOfUnits_eq, wordOfUnits_eq]
    omega
  have hplaced := isPlaced_lastPlaces (n := n) hd
  have hplaced' := isPlaced_lastPlaces (n := m) he
  rcases Nat.lt_or_eq_of_le (lastPlace_mono hd he h) with hlt | heq
  · -- the smaller magnitude stays below the first word of the greater weight
    have hfield := Nat.mul_le_mul_right fieldUnit hlt
    rw [Nat.succ_mul] at hfield
    have hleast := hplaced'.2.resolve_left (by omega)
    have hmost := hplaced.1
    omega
  · have hplaces : lastPlaces n d ≤ lastPlaces m e := by
      have hpow := Nat.two_pow_pos (lastPlace m e)
      rw [lastPlaces, lastPlaces, heq]
      apply roundDiv_mono (Nat.mul_pos hd hpow) (Nat.mul_pos he hpow)
      rw [← Nat.mul_assoc, ← Nat.mul_assoc]
      exact Nat.mul_le_mul_right _ h
    rw [heq]
    omega

theorem wordOfUnits_mul_mul {k : Nat} (hd : 0 < d) (hk : 0 < k) :
    wordOfUnits (n * k) (d * k) = wordOfUnits n d := by
  have hdk := Nat.mul_pos hd hk
  have hcross : n * k * d = n * (d * k) := by
    rw [Nat.mul_assoc, Nat.mul_comm k]
  exact Nat.le_antisymm (wordOfUnits_mono hdk hd (Nat.le_of_eq hcross))
    (wordOfUnits_mono hd hdk (Nat.le_of_eq hcross.symm))

theorem exists_placed (w : Nat) : ∃ shift places, w = shift * fieldUnit + places ∧
    places < 2 * fieldUnit ∧ IsPlaced shift places := by
  rcases Nat.lt_or_ge w fieldUnit with hlt | hge
  · exact ⟨0, w, by omega, by omega, by omega, .inl rfl⟩
  · have hdiv := Nat.div_add_mod w fieldUnit
    have hmod := Nat.mod_lt w (show 0 < fieldUnit by decide)
    obtain ⟨k, hk⟩ : ∃ k, w / fieldUnit = k + 1 :=
      ⟨_, (Nat.sub_add_cancel ((Nat.one_le_div_iff (by decide)).mpr hge)).symm⟩
    rw [hk, Nat.mul_comm, Nat.succ_mul] at hdiv
    exact ⟨k, w % fieldUnit + fieldUnit, by omega, by omega, by omega, .inr (by omega)⟩

theorem lastPlace_placed (h : IsPlaced shift places) (hlt : places < 2 * fieldUnit) :
    lastPlace (places * 2 ^ shift) 1 = shift := by
  rw [lastPlace, Nat.div_one]
  rcases Nat.eq_zero_or_pos shift with rfl | hpositive
  · rw [Nat.pow_zero, Nat.mul_one]
    rcases Nat.eq_zero_or_pos places with rfl | hplaces
    · rfl
    · have hlog : places.log2 < 53 := (Nat.log2_lt (by omega)).mpr hlt
      omega
  · have hleast := h.2.resolve_left (by omega)
    have hlog : (places * 2 ^ shift).log2 = shift + 52 := by
      have hpow := Nat.two_pow_pos shift
      have hproduct : places * 2 ^ shift ≠ 0 := by
        have := Nat.mul_pos (show 0 < places by rw [fieldUnit_eq] at hleast; omega) hpow
        omega
      rw [Nat.log2_eq_iff hproduct]
      constructor
      · rw [Nat.pow_add, Nat.mul_comm]
        exact Nat.mul_le_mul_right _ hleast
      · rw [Nat.add_assoc, Nat.pow_add, Nat.mul_comm places]
        exact Nat.mul_lt_mul_of_pos_left hlt hpow
    omega

theorem wordOfUnits_unitsOfWord (hw : w ≤ infinityWord) : wordOfUnits (unitsOfWord w) 1 = w := by
  obtain ⟨shift, places, rfl, hlt, hplaced⟩ := exists_placed w
  rw [unitsOfWord_placed hplaced, wordOfUnits_eq, lastPlaces, lastPlace_placed hplaced hlt,
    Nat.one_mul, roundDiv_mul_self _ _ (Nat.two_pow_pos shift)]
  exact Nat.min_eq_left hw

theorem wordOfUnits_le (hd : 0 < d) (hw : w ≤ infinityWord) (h : n ≤ unitsOfWord w * d) :
    wordOfUnits n d ≤ w := by
  have hmono := wordOfUnits_mono hd Nat.one_pos (n := n) (m := unitsOfWord w) (by omega)
  rwa [wordOfUnits_unitsOfWord hw] at hmono

theorem unitsOfWord_lt (hw : w ≤ infinityWord) (h : v < w) : unitsOfWord v < unitsOfWord w := by
  apply Nat.lt_of_not_le
  intro hle
  have hback := wordOfUnits_le Nat.one_pos (show v ≤ infinityWord by omega) (n := unitsOfWord w)
    (by omega)
  rw [wordOfUnits_unitsOfWord hw] at hback
  omega

theorem unitsOfWord_le (hw : w ≤ infinityWord) (h : v ≤ w) : unitsOfWord v ≤ unitsOfWord w := by
  rcases Nat.lt_or_eq_of_le h with hlt | rfl
  · exact Nat.le_of_lt (unitsOfWord_lt hw hlt)
  · exact Nat.le_refl _

theorem unitsOfWord_wordOfUnits (h : wordOfUnits n d < infinityWord) (hd : 0 < d) :
    unitsOfWord (wordOfUnits n d) = lastPlaces n d * 2 ^ lastPlace n d := by
  rw [wordOfUnits_eq] at *
  rw [Nat.min_eq_left (by omega), unitsOfWord_placed (isPlaced_lastPlaces hd)]

theorem unitsOfWord_wordOfUnits_of_dvd (h : wordOfUnits n 1 < infinityWord)
    (hdvd : 2 ^ lastPlace n 1 ∣ n) : unitsOfWord (wordOfUnits n 1) = n := by
  obtain ⟨k, hk⟩ := hdvd
  have hplaces : lastPlaces n 1 = k := by
    rw [lastPlaces, Nat.one_mul]
    have hself := roundDiv_mul_self k (2 ^ lastPlace n 1) (Nat.two_pow_pos _)
    rwa [Nat.mul_comm, ← hk] at hself
  rw [unitsOfWord_wordOfUnits h Nat.one_pos, hplaces, Nat.mul_comm, ← hk]

theorem unitsOfWord_wordOfUnits_two_mul (hfinite : wordOfUnits (2 * unitsOfWord w) 1 < infinityWord) :
    unitsOfWord (wordOfUnits (2 * unitsOfWord w) 1) = 2 * unitsOfWord w := by
  apply unitsOfWord_wordOfUnits_of_dvd hfinite
  obtain ⟨shift, places, rfl, hlt, hplaced⟩ := exists_placed w
  rw [unitsOfWord_placed hplaced] at *
  have hplace : lastPlace (2 * (places * 2 ^ shift)) 1 ≤ shift + 1 := by
    have hbelow := lt_lastPlace (n := places * 2 ^ shift) Nat.one_pos
    rw [lastPlace_placed hplaced hlt] at hbelow
    apply lastPlace_le_of_lt Nat.one_pos
    rw [Nat.add_right_comm, Nat.pow_succ]
    omega
  apply Nat.dvd_trans (Nat.pow_dvd_pow 2 hplace)
  rw [Nat.pow_succ, Nat.mul_comm 2]
  exact Nat.mul_dvd_mul (Nat.dvd_mul_left _ _) (Nat.dvd_refl 2)

theorem unitsOfWord_wordOfUnits_bounds (h : wordOfUnits n d < infinityWord) (hd : 0 < d) :
    2 * (unitsOfWord (wordOfUnits n d) * d) ≤ 2 * n + d * 2 ^ lastPlace n d ∧
      2 * n ≤ 2 * (unitsOfWord (wordOfUnits n d) * d) + d * 2 ^ lastPlace n d := by
  have hweight : 0 < d * 2 ^ lastPlace n d := Nat.mul_pos hd (Nat.two_pow_pos _)
  have hscale : lastPlaces n d * 2 ^ lastPlace n d * d = lastPlaces n d * (d * 2 ^ lastPlace n d) := by
    rw [Nat.mul_assoc, Nat.mul_comm (2 ^ _)]
  rw [unitsOfWord_wordOfUnits h hd, hscale]
  exact ⟨roundDiv_mul_le _ _ hweight, le_roundDiv_mul _ _ hweight⟩

theorem unitsOfWord_wordOfUnits_relative (h : wordOfUnits n d < infinityWord) (hd : 0 < d)
    (hn : d * 2 ^ 52 ≤ n) :
    2 ^ 53 * (unitsOfWord (wordOfUnits n d) * d) ≤ 2 ^ 53 * n + n ∧
      2 ^ 53 * n ≤ 2 ^ 53 * (unitsOfWord (wordOfUnits n d) * d) + n := by
  have hbounds := unitsOfWord_wordOfUnits_bounds h hd
  have hplace : d * 2 ^ lastPlace n d * 2 ^ 52 ≤ n := by
    rw [Nat.mul_assoc, ← Nat.pow_add]
    rcases Nat.eq_zero_or_pos (lastPlace n d) with hzero | hpositive
    · rwa [hzero, Nat.zero_add]
    · exact lastPlace_le hd hpositive
  omega

end Binary64

end LeaseLock
