import LeaseLock.Proofs.Number.Binary64
import LeaseLock.Proofs.Time.Span

/-!
Spans counted in seconds as doubles. Which doubles are spans, that the conversion back keeps the
order, and that a span of at most `2 ^ 23` seconds comes back from its seconds unchanged: up to
there the last place of a double is less than half a nanosecond.
-/

namespace LeaseLock.Span

open Binary64

variable {x y : Binary64} {s t : Span}

def limitWord : Nat := 1087 * fieldUnit

theorem limitWord_lt : limitWord < infinityWord := by decide

theorem unitsOfWord_limitWord : unitsOfWord limitWord = 2 ^ 64 * one := by decide +kernel

theorem isFinite_of_lt_limitWord (h0 : 0 ≤ x.rank) (h : x.rank < limitWord) : x.isFinite = true := by
  have hlimit := limitWord_lt
  rw [isFinite_iff]
  omega

def nanosOfUnits (n : Nat) : Nat := roundDiv (n * nanosPerSecond) one

theorem nanosOfUnits_mono {n m : Nat} (h : n ≤ m) : nanosOfUnits n ≤ nanosOfUnits m := by
  apply roundDiv_mono pos_one pos_one
  exact Nat.mul_le_mul_right _ (Nat.mul_le_mul_right _ h)

theorem nanosOfUnits_whole (n : Nat) : nanosOfUnits (n * one) = n * nanosPerSecond := by
  rw [nanosOfUnits, Nat.mul_right_comm, roundDiv_mul_self _ _ pos_one]

theorem ofSecondsFloat?_of_nonneg (h0 : 0 ≤ x.rank) (hx : x.isFinite = true) :
    ofSecondsFloat? x = ofNanos? (nanosOfUnits x.units) := by
  have hsign : x.lt 0 = false := by
    rw [Bool.eq_false_iff, Ne, lt_iff (isNaN_of_isFinite hx) (isNaN_of_isFinite isFinite_zero),
      rank_zero]
    omega
  simp only [ofSecondsFloat?, hx, hsign, Bool.not_true, Bool.or_self, Bool.false_eq_true, if_false]
  rw [nanosOfUnits]

theorem rank_nonneg_of_ofSecondsFloat? (h : ofSecondsFloat? x = some s) :
    x.isFinite = true ∧ 0 ≤ x.rank := by
  simp only [ofSecondsFloat?, Option.ite_none_left_eq_some, Bool.or_eq_true, not_or,
    Bool.not_eq_true', Bool.not_eq_false] at h
  obtain ⟨⟨hfinite, hsign⟩, -⟩ := h
  rw [lt_iff (isNaN_of_isFinite hfinite) (isNaN_of_isFinite isFinite_zero), rank_zero] at hsign
  exact ⟨hfinite, by omega⟩

theorem ofSecondsFloat?_isSome_iff :
    (ofSecondsFloat? x).isSome ↔ 0 ≤ x.rank ∧ x.rank < limitWord := by
  constructor
  · intro h
    obtain ⟨s, hs⟩ := Option.isSome_iff_exists.mp h
    obtain ⟨hfinite, hrank⟩ := rank_nonneg_of_ofSecondsFloat? hs
    refine ⟨hrank, Int.lt_of_not_ge ?_⟩
    intro hbeyond
    have hunits : 2 ^ 64 * one ≤ x.units := by
      rw [← unitsOfWord_limitWord, units, ← natAbs_rank]
      apply unitsOfWord_le
      · exact Nat.le_of_lt (isFinite_iff.mp hfinite)
      · omega
    have hmono := nanosOfUnits_mono hunits
    have hrange := s.inRange
    rw [ofSecondsFloat?_of_nonneg hrank hfinite, ofNanos?_eq_some_iff] at hs
    rw [hs, UInt64.size] at hrange
    rw [nanosOfUnits_whole] at hmono
    omega
  · rintro ⟨hrank, hlimit⟩
    have hbelow : unitsOfWord (limitWord - 1) = (2 ^ 64 - 2048) * one := by decide +kernel
    have hunits : x.units ≤ (2 ^ 64 - 2048) * one := by
      rw [← hbelow, units, ← natAbs_rank]
      apply unitsOfWord_le (by decide)
      omega
    have hmono := nanosOfUnits_mono hunits
    rw [nanosOfUnits_whole] at hmono
    rw [ofSecondsFloat?_of_nonneg hrank (isFinite_of_lt_limitWord hrank hlimit)]
    apply ofNanos?_isSome
    apply Nat.lt_of_le_of_lt hmono
    decide

theorem exists_ofSecondsFloat?_le (h0 : 0 ≤ x.rank) (h : x.rank ≤ y.rank)
    (hy : ofSecondsFloat? y = some t) : ∃ s, ofSecondsFloat? x = some s ∧ s ≤ t := by
  obtain ⟨hrank, hlimit⟩ := ofSecondsFloat?_isSome_iff.mp (Option.isSome_iff_exists.mpr ⟨t, hy⟩)
  have hfinite := isFinite_of_lt_limitWord hrank hlimit
  have hlt : x.rank < limitWord := Int.lt_of_le_of_lt h hlimit
  obtain ⟨s, hs⟩ := Option.isSome_iff_exists.mp (ofSecondsFloat?_isSome_iff.mpr ⟨h0, hlt⟩)
  refine ⟨s, hs, ?_⟩
  have hmono := nanosOfUnits_mono (units_le_units h0 h (isNaN_of_isFinite hfinite))
  rw [ofSecondsFloat?_of_nonneg hrank hfinite, ofNanos?_eq_some_iff] at hy
  rw [ofSecondsFloat?_of_nonneg h0 (isFinite_of_lt_limitWord h0 hlt), ofNanos?_eq_some_iff] at hs
  change s.nanos ≤ t.nanos
  rw [hs, hy]
  exact hmono

theorem ofSecondsFloat?_of_rank_eq (h : x.rank = y.rank) (hy : ofSecondsFloat? y = some t) :
    ofSecondsFloat? x = some t := by
  have hunits : x.units = y.units := by rw [units_eq, units_eq y, value_eq, value_eq y, h]
  have hfinite : x.isFinite = y.isFinite := by rw [isFinite, isFinite, ← natAbs_rank, ← natAbs_rank, h]
  obtain ⟨hy', hrank⟩ := rank_nonneg_of_ofSecondsFloat? hy
  rw [ofSecondsFloat?_of_nonneg (h ▸ hrank) (hfinite.trans hy'), hunits,
    ← ofSecondsFloat?_of_nonneg hrank hy', hy]

def partOfSecond (s : Span) : Binary64 := ofNat s.fraction / ofNat nanosPerSecond

theorem rank_partOfSecond (s : Span) :
    s.partOfSecond.rank = wordOfUnits (s.fraction * one) nanosPerSecond := by
  have hnanos := s.fraction_lt
  have hfraction : (ofNat s.fraction).units = s.fraction * one := by
    apply units_ofNat
    simp only [nanosPerSecond] at hnanos
    omega
  have hsecond : (ofNat nanosPerSecond).units = nanosPerSecond * one := units_ofNat (by decide)
  have hpos : 0 < (ofNat nanosPerSecond).units := by
    rw [hsecond]
    exact Nat.mul_pos (by decide) pos_one
  have hfinite : (ofNat s.fraction).isFinite = true := by
    apply isFinite_ofNat
    simp only [nanosPerSecond] at hnanos
    omega
  rw [partOfSecond, rank_div hfinite (isFinite_ofNat (by decide)) (negative_ofUnits _ _ _)
    (negative_ofUnits _ _ _) hpos, hfraction, hsecond,
    wordOfUnits_mul_mul (by decide) pos_one]

theorem partOfSecond_between (s : Span) : s.partOfSecond.isFinite = true ∧
    0 ≤ s.partOfSecond.value ∧ s.partOfSecond.value ≤ one := by
  have hrank : s.partOfSecond.rank = nearestRank (s.fraction * one : Nat) nanosPerSecond := by
    rw [rank_partOfSecond, nearestRank_natCast]
  have hfraction := Nat.mul_le_mul_right one (Nat.le_of_lt s.fraction_lt)
  rw [← value_zero, ← value_one]
  apply between_of_nearest hrank (by decide) isFinite_zero isFinite_one
  · rw [value_zero, Int.zero_mul]
    exact Int.natCast_nonneg _
  · rw [value_one, Int.mul_comm]
    exact_mod_cast hfraction

theorem isFinite_partOfSecond (s : Span) : s.partOfSecond.isFinite = true :=
  s.partOfSecond_between.1

theorem units_partOfSecond_le (s : Span) : s.partOfSecond.units ≤ one := by
  have hle := s.partOfSecond_between.2
  rw [units_eq]
  omega

theorem rank_toSeconds (s : Span) :
    s.toSeconds.rank = wordOfUnits ((ofNat s.seconds).units + s.partOfSecond.units) 1 := by
  have hfinite : (ofNat s.seconds).isFinite = true := isFinite_ofNat (Nat.le_of_lt s.seconds_lt)
  have hwhole : 0 ≤ (ofNat s.seconds).rank := by
    rw [rank_ofNat]
    exact Int.natCast_nonneg _
  have hpart : 0 ≤ s.partOfSecond.rank := by
    rw [rank_partOfSecond]
    exact Int.natCast_nonneg _
  change (ofNat s.seconds + s.partOfSecond).rank = _
  rw [rank_add hfinite s.isFinite_partOfSecond, value_of_rank_nonneg hwhole,
    value_of_rank_nonneg hpart, ← Int.natCast_add]
  exact nearestRank_natCast _ _

theorem rank_toSeconds_nonneg (s : Span) : 0 ≤ s.toSeconds.rank := by
  rw [rank_toSeconds]
  exact Int.natCast_nonneg _

theorem rank_toSeconds_le_of {n w : Nat} (hw : w ≤ infinityWord) (hunits : unitsOfWord w = n * one)
    (hnext : wordOfUnits ((n + 1) * one) 1 = w) (h : s.seconds ≤ n) : s.toSeconds.rank ≤ w := by
  have hwhole : (ofNat s.seconds).units ≤ n * one := by
    rw [← hunits, ← unitsOfWord_eq_units _ (rank_ofNat s.seconds)]
    apply unitsOfWord_le hw
    apply wordOfUnits_le Nat.one_pos hw
    rw [hunits, Nat.mul_one]
    exact Nat.mul_le_mul_right one h
  have hpart := s.units_partOfSecond_le
  rw [rank_toSeconds, ← hnext]
  apply Int.ofNat_le.mpr
  apply wordOfUnits_mono Nat.one_pos Nat.one_pos
  rw [Nat.succ_mul]
  omega

theorem rank_toSeconds_le (s : Span) : s.toSeconds.rank ≤ limitWord := by
  have hnext : wordOfUnits ((2 ^ 64 + 1) * one) 1 = limitWord := by decide +kernel
  exact rank_toSeconds_le_of (by decide) unitsOfWord_limitWord hnext (Nat.le_of_lt s.seconds_lt)

theorem isFinite_toSeconds (s : Span) : s.toSeconds.isFinite = true := by
  have hle := s.rank_toSeconds_le
  have hnonneg := s.rank_toSeconds_nonneg
  have hlimit := limitWord_lt
  rw [isFinite_iff]
  omega

theorem value_toSeconds_nonneg (s : Span) : 0 ≤ s.toSeconds.value :=
  (rank_nonneg_iff s.isFinite_toSeconds).mp s.rank_toSeconds_nonneg

def limit : Binary64 := pack false limitWord

theorem isFinite_limit : limit.isFinite = true := isFinite_pack limitWord_lt

theorem rank_limit : limit.rank = limitWord := rank_pack (by decide)

theorem value_limit : limit.value = (2 ^ 64 * one : Nat) := by
  rw [limit, value_pack (by decide), unitsOfWord_limitWord]

theorem rank_lt_limitWord_iff (hx : x.isFinite = true) :
    x.rank < limitWord ↔ x.value < (2 ^ 64 * one : Nat) := by
  rw [← rank_limit, ← value_limit, ← Int.not_le, ← Int.not_le, rank_le_iff isFinite_limit hx]

theorem value_toSeconds_le (s : Span) : s.toSeconds.value ≤ (2 ^ 64 * one : Nat) := by
  have hle := s.rank_toSeconds_le
  rwa [← rank_limit, rank_le_iff s.isFinite_toSeconds isFinite_limit, value_limit] at hle

theorem value_toSeconds_le_of_half (h : s.nanos ≤ (2 ^ 63 - 1024) * nanosPerSecond) :
    s.toSeconds.value ≤ ((2 ^ 63 - 1024) * one : Nat) := by
  have hunits : unitsOfWord (1086 * fieldUnit - 1) = (2 ^ 63 - 1024) * one := by decide +kernel
  have hrank : (pack false (1086 * fieldUnit - 1)).rank = (1086 * fieldUnit - 1 : Nat) :=
    rank_pack (by decide)
  have hnext : wordOfUnits ((2 ^ 63 - 1024 + 1) * one) 1 = 1086 * fieldUnit - 1 := by decide +kernel
  have hseconds : s.seconds ≤ 2 ^ 63 - 1024 := by
    have hdiv := Nat.div_le_div_right (c := nanosPerSecond) h
    rwa [Nat.mul_div_cancel _ (by decide)] at hdiv
  have hle := rank_toSeconds_le_of (by decide) hunits hnext hseconds
  rwa [← hrank, rank_le_iff s.isFinite_toSeconds (isFinite_pack (by decide)),
    value_pack (by decide), hunits] at hle

theorem two_pow_mul_le_one {k j : Nat} (h : k + j ≤ 1074) : 2 ^ k * 2 ^ j ≤ one := by
  obtain ⟨m, hm⟩ : ∃ m, m = 1074 := ⟨_, rfl⟩
  rw [← Nat.pow_add, one_eq_two_pow hm]
  exact Nat.pow_le_pow_right (by decide) (by omega)

theorem units_partOfSecond_near (s : Span) :
    2 ^ 54 * (s.partOfSecond.units * nanosPerSecond) ≤
        2 ^ 54 * (s.fraction * one) + nanosPerSecond * one ∧
      2 ^ 54 * (s.fraction * one) ≤
        2 ^ 54 * (s.partOfSecond.units * nanosPerSecond) + nanosPerSecond * one := by
  have hfinite : wordOfUnits (s.fraction * one) nanosPerSecond < infinityWord := by
    have h := isFinite_iff.mp s.isFinite_partOfSecond
    rwa [rank_partOfSecond, Int.natAbs_natCast] at h
  have hplace : lastPlace (s.fraction * one) nanosPerSecond ≤ 0 + 1021 := by
    apply lastPlace_le_of_lt_one (by decide)
    rw [Nat.pow_zero, Nat.one_mul]
    exact Nat.mul_lt_mul_of_pos_right s.fraction_lt pos_one
  have hbounds := unitsOfWord_wordOfUnits_bounds hfinite (show 0 < nanosPerSecond by decide)
  have hweight := Nat.mul_le_mul_left nanosPerSecond
    (two_pow_mul_le_one (show lastPlace (s.fraction * one) nanosPerSecond + 53 ≤ 1074 by omega))
  rw [unitsOfWord_eq_units _ s.rank_partOfSecond] at hbounds
  rw [← Nat.mul_assoc] at hweight
  generalize nanosPerSecond * 2 ^ lastPlace (s.fraction * one) nanosPerSecond = weight at *
  omega

theorem units_partOfSecond_lt (s : Span) : s.partOfSecond.units < one := by
  have hnear := s.units_partOfSecond_near.1
  have hfraction : s.fraction * one + one ≤ nanosPerSecond * one := by
    rw [← Nat.succ_mul]
    exact Nat.mul_le_mul_right one s.fraction_lt
  have hpos := pos_one
  simp only [nanosPerSecond] at *
  omega

theorem units_toSeconds_near (h : s.seconds < 2 ^ 23) :
    2 ^ 31 * s.toSeconds.units ≤ 2 ^ 31 * (s.seconds * one + s.partOfSecond.units) + one ∧
      2 ^ 31 * (s.seconds * one + s.partOfSecond.units) ≤ 2 ^ 31 * s.toSeconds.units + one := by
  have hwhole : (ofNat s.seconds).units = s.seconds * one := units_ofNat (by omega)
  have hrank := s.rank_toSeconds
  rw [hwhole] at hrank
  have hfinite := isFinite_iff.mp s.isFinite_toSeconds
  rw [hrank, Int.natAbs_natCast] at hfinite
  have hplace : lastPlace (s.seconds * one + s.partOfSecond.units) 1 ≤ 23 + 1021 := by
    have hseconds := Nat.mul_le_mul_right one h
    have hpart := s.units_partOfSecond_lt
    rw [Nat.succ_mul] at hseconds
    apply lastPlace_le_of_lt_one Nat.one_pos
    rw [Nat.one_mul]
    omega
  have hbounds := unitsOfWord_wordOfUnits_bounds hfinite Nat.one_pos
  have hweight := two_pow_mul_le_one
    (show lastPlace (s.seconds * one + s.partOfSecond.units) 1 + 30 ≤ 1074 by omega)
  rw [unitsOfWord_eq_units _ hrank, Nat.mul_one, Nat.one_mul] at hbounds
  generalize 2 ^ lastPlace (s.seconds * one + s.partOfSecond.units) 1 = weight at *
  omega

theorem ofSecondsFloat?_toSeconds (h : s.nanos ≤ 2 ^ 23 * nanosPerSecond) :
    ofSecondsFloat? s.toSeconds = some s := by
  rcases Nat.lt_or_ge s.seconds (2 ^ 23) with hlt | hge
  · rw [ofSecondsFloat?_of_nonneg s.rank_toSeconds_nonneg s.isFinite_toSeconds,
      ofNanos?_eq_some_iff]
    symm
    have hpart := s.units_partOfSecond_near
    have hwhole := units_toSeconds_near hlt
    have hpos := pos_one
    have hnanos : s.nanos * one = s.seconds * one * nanosPerSecond + s.fraction * one := by
      rw [← s.seconds_mul_add_fraction, Nat.add_mul, Nat.mul_right_comm]
    -- the two roundings are off by `2 ^ -54 + 2 ^ -31` of a second, less than half a nanosecond
    apply roundDiv_eq_of_near pos_one
    · rw [hnanos]
      simp only [nanosPerSecond] at *
      omega
    · rw [hnanos]
      simp only [nanosPerSecond] at *
      omega
  · have hnanos : s.nanos = 2 ^ 23 * nanosPerSecond := by
      have hseconds := (Nat.le_div_iff_mul_le (show 0 < nanosPerSecond by decide)).mp hge
      omega
    have hlast : s = ofSeconds (2 ^ 23) := eq_of_nanos hnanos
    rw [hlast]
    decide +kernel

theorem mul_nanosPerSecond_le_one : 2 ^ 53 * nanosPerSecond ≤ one := by
  have hpow := two_pow_mul_le_one (show 53 + 30 ≤ 1074 by decide)
  simp only [nanosPerSecond]
  omega

theorem units_partOfSecond_relative (s : Span) :
    2 ^ 53 * (s.partOfSecond.units * nanosPerSecond) ≤ 2 ^ 53 * (s.fraction * one) + s.fraction * one ∧
      2 ^ 53 * (s.fraction * one) ≤
        2 ^ 53 * (s.partOfSecond.units * nanosPerSecond) + s.fraction * one := by
  have hrank := s.rank_partOfSecond
  rcases Nat.eq_zero_or_pos s.fraction with hzero | hpositive
  · rw [hzero, Nat.zero_mul, wordOfUnits_zero (by decide)] at hrank
    rw [← unitsOfWord_eq_units _ hrank, hzero, unitsOfWord_zero]
    simp
  · have hfinite := isFinite_iff.mp s.isFinite_partOfSecond
    rw [hrank, Int.natAbs_natCast] at hfinite
    rw [← unitsOfWord_eq_units _ hrank]
    apply unitsOfWord_wordOfUnits_relative hfinite (by decide)
    have hleast := mul_nanosPerSecond_le_one
    have hfraction := Nat.le_mul_of_pos_left one hpositive
    generalize nanosPerSecond = n at *
    omega

theorem units_partOfSecond_le_toSeconds (s : Span) : s.partOfSecond.units ≤ s.toSeconds.units := by
  have hpart : s.partOfSecond.rank = wordOfUnits s.partOfSecond.units 1 := by
    have hself := nearestRank_value Nat.one_pos (isNaN_of_isFinite s.isFinite_partOfSecond)
    have hnonneg := (rank_nonneg_iff s.isFinite_partOfSecond).mpr s.partOfSecond_between.2.1
    rw [value_of_rank_nonneg hnonneg, Int.natCast_one, Int.mul_one, nearestRank_natCast] at hself
    exact hself.symm
  apply units_le_units
  · rw [hpart]
    exact Int.natCast_nonneg _
  · rw [hpart, s.rank_toSeconds, Int.ofNat_le]
    exact wordOfUnits_mono Nat.one_pos Nat.one_pos (by omega)
  · exact isNaN_of_isFinite s.isFinite_toSeconds

theorem units_ofNat_le_toSeconds {n : Nat} (h : n ≤ s.seconds) (hn : n < 2 ^ 53) :
    n * one ≤ s.toSeconds.units := by
  have hwhole : (ofNat n).units ≤ (ofNat s.seconds).units := by
    apply units_le_units
    · rw [rank_ofNat]
      exact Int.natCast_nonneg _
    · rw [rank_ofNat, rank_ofNat, Int.ofNat_le]
      apply wordOfUnits_mono Nat.one_pos Nat.one_pos
      rw [Nat.mul_one, Nat.mul_one]
      exact Nat.mul_le_mul_right one h
    · exact isNaN_of_isFinite (isFinite_ofNat (Nat.le_of_lt s.seconds_lt))
  rw [← units_ofNat hn]
  apply units_le_units
  · rw [rank_ofNat]
    exact Int.natCast_nonneg _
  · rw [rank_ofNat, s.rank_toSeconds, Int.ofNat_le]
    apply wordOfUnits_mono Nat.one_pos Nat.one_pos
    rw [units_ofNat hn] at hwhole
    omega
  · exact isNaN_of_isFinite s.isFinite_toSeconds

theorem one_lt_units_toSeconds (hpos : 0 < s.nanos) :
    one < 2 * (s.toSeconds.units * nanosPerSecond) := by
  have hone := pos_one
  rcases Nat.eq_zero_or_pos s.fraction with hzero | hfraction
  · have hseconds : 1 ≤ s.seconds := by
      have hparts := s.seconds_mul_add_fraction
      apply Nat.pos_of_ne_zero
      intro hnone
      rw [hzero, hnone, Nat.zero_mul] at hparts
      omega
    have hwhole := units_ofNat_le_toSeconds hseconds (by decide)
    simp only [nanosPerSecond]
    omega
  · have hpart := s.units_partOfSecond_relative.2
    have hle := s.units_partOfSecond_le_toSeconds
    have hleast := Nat.le_mul_of_pos_left one hfraction
    simp only [nanosPerSecond] at *
    linarith

theorem value_toSeconds_pos (hpos : 0 < s.nanos) : 0 < s.toSeconds.value := by
  have hleast := one_lt_units_toSeconds hpos
  rw [value_of_rank_nonneg s.rank_toSeconds_nonneg]
  apply Int.natCast_pos.mpr
  apply Nat.pos_of_ne_zero
  intro hzero
  rw [hzero, Nat.zero_mul] at hleast
  omega

theorem nanosOfUnits_pos {n : Nat} (h : one < 2 * (n * nanosPerSecond)) : 0 < nanosOfUnits n := by
  have hround := le_roundDiv_mul (n * nanosPerSecond) one pos_one
  change _ ≤ 2 * (nanosOfUnits n * one) + one at hround
  apply Nat.pos_of_ne_zero
  intro hzero
  rw [hzero, Nat.zero_mul] at hround
  omega

theorem units_toSeconds_relative (hpos : 0 < s.nanos) (h : s.seconds < 2 ^ 53) :
    2 ^ 53 * (s.toSeconds.units * nanosPerSecond) ≤ 2 ^ 53 * (s.nanos * one) + 3 * (s.nanos * one) ∧
      2 ^ 53 * (s.nanos * one) ≤
        2 ^ 53 * (s.toSeconds.units * nanosPerSecond) + 3 * (s.nanos * one) := by
  have hpart := s.units_partOfSecond_relative
  have hwhole : (ofNat s.seconds).units = s.seconds * one := units_ofNat h
  have hrank := s.rank_toSeconds
  rw [hwhole] at hrank
  have hfinite := isFinite_iff.mp s.isFinite_toSeconds
  rw [hrank, Int.natAbs_natCast] at hfinite
  have hnanos : s.nanos * one = s.seconds * one * nanosPerSecond + s.fraction * one := by
    rw [← s.seconds_mul_add_fraction, Nat.add_mul, Nat.mul_right_comm]
  have hleast := mul_nanosPerSecond_le_one
  have hone := Nat.le_mul_of_pos_left one hpos
  have hsum : 1 * 2 ^ 52 ≤ s.seconds * one + s.partOfSecond.units := by
    simp only [nanosPerSecond] at *
    omega
  have hround := unitsOfWord_wordOfUnits_relative hfinite Nat.one_pos hsum
  rw [unitsOfWord_eq_units _ hrank] at hround
  simp only [nanosPerSecond] at *
  constructor <;> linarith

theorem le_units_toSeconds (hpos : 0 < s.nanos) : 2 ^ 52 ≤ s.toSeconds.units := by
  have hleast := one_lt_units_toSeconds hpos
  have hone := mul_nanosPerSecond_le_one
  simp only [nanosPerSecond] at *
  apply Nat.le_of_not_lt
  intro hlt
  linarith

theorem units_toSeconds_mul_near {m : Nat} (hpos : 0 < s.nanos) (h : s.seconds < 2 ^ 53) (hm : 0 < m)
    (hx : x.isFinite = true) (hvalue : x.value = (m * one : Nat))
    (hfinite : (s.toSeconds * x).isFinite = true) :
    2 ^ 55 * ((s.toSeconds * x).units * nanosPerSecond) ≤
        2 ^ 55 * (s.nanos * m * one) + 17 * (s.nanos * m * one) ∧
      2 ^ 55 * (s.nanos * m * one) ≤
        2 ^ 55 * ((s.toSeconds * x).units * nanosPerSecond) + 17 * (s.nanos * m * one) := by
  have hseconds := units_toSeconds_relative hpos h
  have hrank : (s.toSeconds * x).rank = wordOfUnits (s.toSeconds.units * m) 1 := by
    rw [rank_mul s.isFinite_toSeconds hx, value_of_rank_nonneg s.rank_toSeconds_nonneg, hvalue,
      ← Int.natCast_mul, nearestRank_natCast, ← Nat.mul_assoc,
      ← wordOfUnits_mul_mul (n := s.toSeconds.units * m) Nat.one_pos pos_one, Nat.one_mul]
  have hword := isFinite_iff.mp hfinite
  rw [hrank, Int.natAbs_natCast] at hword
  have hleast : 1 * 2 ^ 52 ≤ s.toSeconds.units * m := by
    rw [Nat.one_mul]
    exact Nat.le_trans (le_units_toSeconds hpos) (Nat.le_mul_of_pos_right _ hm)
  have hround := unitsOfWord_wordOfUnits_relative hword Nat.one_pos hleast
  rw [unitsOfWord_eq_units _ hrank] at hround
  have hlow := Nat.mul_le_mul_right m hseconds.1
  have hhigh := Nat.mul_le_mul_right m hseconds.2
  simp only [nanosPerSecond] at *
  constructor <;> linarith

end LeaseLock.Span
