import LeaseLock.Proofs.Lock.Backoff
import LeaseLock.Proofs.Number.Whole

/-!
The curve of delays for a whole growth factor. Doubles count the powers of the factor exactly as long
as the curve stays below a cap of less than `2 ^ 20` seconds, and up to there seconds are precise
enough to tell one nanosecond from the next. So the curve is what whole numbers of nanoseconds give.
-/

namespace LeaseLock.Backoff

open Binary64

variable {b : Backoff} {g attempt : Nat}

def scaled (b : Backoff) (attempt : Nat) : Binary64 :=
  b.base.toSeconds * b.growth.pow (min attempt maxExponent)

theorem delay?_of_cut (h : b.cap.toSeconds.le (b.scaled attempt) = true) :
    b.delay? attempt = some b.cap := by
  rw [scaled] at h
  simp only [delay?, h, Bool.or_true, if_true]

theorem delay?_of_not_isFinite (h : (b.scaled attempt).isFinite = false) :
    b.delay? attempt = some b.cap := by
  rw [scaled] at h
  simp only [delay?, h, Bool.not_false, Bool.true_or, if_true]

theorem delay?_of_below (hfinite : (b.scaled attempt).isFinite = true)
    (h : b.cap.toSeconds.le (b.scaled attempt) = false) :
    b.delay? attempt = (Span.ofSecondsFloat? (b.scaled attempt)).map (min · b.cap) := by
  rw [scaled] at *
  simp only [delay?, h, hfinite, Bool.not_true, Bool.or_self, Bool.false_eq_true, if_false]

/-- A checked backoff with a whole growth factor and a cap of less than `2 ^ 20` seconds. -/
structure IsWhole (b : Backoff) (g : Nat) : Prop extends b.IsSound where
  base_pos : 0 < b.base.nanos
  growth_counts : b.growth.Counts g
  growth_pos : 0 < g
  cap_lt : b.cap.nanos < 2 ^ 20 * nanosPerSecond

theorem isWhole_of_check (h : b.check = .ok ()) (hg : b.growth.value = (g * one : Nat))
    (hcap : b.cap.nanos < 2 ^ 20 * nanosPerSecond) : b.IsWhole g := by
  have hdemands := b.enforces_check.ok_iff.mp h
  simp only [demands, List.forall_mem_cons] at hdemands
  obtain ⟨hbase, -, -, ⟨hfinite, hgrowth⟩, -⟩ := hdemands
  refine ⟨isSound_of_check h, hbase, counts_of_value hfinite hg, ?_, hcap⟩
  have hpos := pos_one
  apply Nat.pos_of_ne_zero
  rintro rfl
  rw [hg, Nat.zero_mul] at hgrowth
  omega

theorem IsWhole.counts (h : b.IsWhole g) (attempt : Nat) :
    (b.growth.pow (min attempt maxExponent)).Counts (g ^ min attempt maxExponent) :=
  counts_pow h.growth_counts h.growth_pos _

theorem IsWhole.pow_pos (h : b.IsWhole g) (attempt : Nat) : 0 < g ^ min attempt maxExponent :=
  Nat.pow_pos h.growth_pos

theorem IsWhole.seconds_lt (h : b.IsWhole g) {s : Span} (hle : s.nanos ≤ b.cap.nanos) :
    s.seconds < 2 ^ 53 := by
  have hcap := h.cap_lt
  have hdiv : s.seconds < 2 ^ 20 := by
    rw [Span.seconds, Nat.div_lt_iff_lt_mul (by decide)]
    omega
  omega

theorem IsWhole.base_seconds_lt (h : b.IsWhole g) : b.base.seconds < 2 ^ 53 :=
  h.seconds_lt h.base_le

theorem IsWhole.cap_pos (h : b.IsWhole g) : 0 < b.cap.nanos :=
  Nat.lt_of_lt_of_le h.base_pos h.base_le

theorem IsWhole.pow_le (h : b.IsWhole g)
    (hlt : b.base.nanos * g ^ min attempt maxExponent < b.cap.nanos) :
    g ^ min attempt maxExponent ≤ 2 ^ 52 := by
  have hcap := h.cap_lt
  have hpow := Nat.le_mul_of_pos_left (g ^ min attempt maxExponent) h.base_pos
  simp only [nanosPerSecond] at hcap
  omega

theorem IsWhole.isFinite_scaled (h : b.IsWhole g)
    (hlt : b.base.nanos * g ^ min attempt maxExponent < b.cap.nanos) :
    (b.scaled attempt).isFinite = true := by
  have hcap := h.cap_lt
  have hle := h.pow_le hlt
  have hvalue := (h.counts attempt).value_of_le hle
  have hfinite := (h.counts attempt).isFinite hle
  have hseconds := (Span.units_toSeconds_relative h.base_pos h.base_seconds_lt).1
  have htop : (ofNat (2 ^ 21)).isFinite = true := isFinite_ofNat (by decide)
  have hnonneg := b.base.value_toSeconds_nonneg
  refine (between_of_nearest (rank_mul b.base.isFinite_toSeconds hfinite) pos_one isFinite_zero htop
    ?_ ?_).1
  · rw [value_zero, Int.zero_mul]
    exact Int.mul_nonneg hnonneg (h.counts attempt).value_nonneg
  · rw [value_ofNat (by decide), hvalue, value_of_rank_nonneg b.base.rank_toSeconds_nonneg,
      ← Int.natCast_mul, ← Int.natCast_mul, Int.ofNat_le, ← Nat.mul_assoc]
    generalize g ^ min attempt maxExponent = m at *
    apply Nat.mul_le_mul_right
    have hscaled := Nat.mul_le_mul_right m hseconds
    have hbelow := Nat.mul_le_mul_right one (Nat.le_of_lt (Nat.lt_trans hlt hcap))
    simp only [nanosPerSecond] at *
    linarith

theorem IsWhole.units_scaled_near (h : b.IsWhole g)
    (hlt : b.base.nanos * g ^ min attempt maxExponent < b.cap.nanos) :
    2 ^ 55 * ((b.scaled attempt).units * nanosPerSecond) ≤
        2 ^ 55 * (b.base.nanos * g ^ min attempt maxExponent * one) +
          17 * (b.base.nanos * g ^ min attempt maxExponent * one) ∧
      2 ^ 55 * (b.base.nanos * g ^ min attempt maxExponent * one) ≤
        2 ^ 55 * ((b.scaled attempt).units * nanosPerSecond) +
          17 * (b.base.nanos * g ^ min attempt maxExponent * one) := by
  have hle := h.pow_le hlt
  exact Span.units_toSeconds_mul_near h.base_pos h.base_seconds_lt (h.pow_pos attempt)
    ((h.counts attempt).isFinite hle) ((h.counts attempt).value_of_le hle) (h.isFinite_scaled hlt)

theorem rank_scaled_nonneg (h : b.IsSound) : 0 ≤ (b.scaled attempt).rank :=
  rank_nonneg (negative_mul (negative_toSeconds _) (negative_pow h.negative_growth _))

theorem IsWhole.not_cut (h : b.IsWhole g)
    (hlt : b.base.nanos * g ^ min attempt maxExponent < b.cap.nanos) :
    b.cap.toSeconds.le (b.scaled attempt) = false := by
  have hcap := h.cap_lt
  have hnear := (h.units_scaled_near hlt).1
  have hseconds := (Span.units_toSeconds_relative h.cap_pos (h.seconds_lt (Nat.le_refl _))).2
  have hpos := pos_one
  rw [Bool.eq_false_iff, Ne, le_iff_value b.cap.isFinite_toSeconds (h.isFinite_scaled hlt),
    value_of_rank_nonneg b.cap.rank_toSeconds_nonneg,
    value_of_rank_nonneg (rank_scaled_nonneg h.toIsSound), Int.ofNat_le, Nat.not_le]
  generalize b.base.nanos * g ^ min attempt maxExponent = n at *
  have hnext := Nat.mul_le_mul_right one hlt
  have hbelow := Nat.mul_lt_mul_of_pos_right hcap hpos
  apply Nat.lt_of_not_le
  intro hge
  simp only [nanosPerSecond, Nat.succ_mul] at *
  linarith

theorem IsWhole.delay?_of_lt (h : b.IsWhole g)
    (hlt : b.base.nanos * g ^ min attempt maxExponent < b.cap.nanos) :
    ∃ delay, b.delay? attempt = some delay ∧
      delay.nanos = b.base.nanos * g ^ min attempt maxExponent := by
  obtain ⟨hlow, hhigh⟩ := h.units_scaled_near hlt
  have hcap := h.cap_lt
  have hfinite := h.isFinite_scaled hlt
  have hnanos : Span.nanosOfUnits (b.scaled attempt).units =
      b.base.nanos * g ^ min attempt maxExponent := by
    have hbelow := Nat.mul_lt_mul_of_pos_right (Nat.lt_trans hlt hcap) pos_one
    -- the three roundings are off by `17 / 4 * 2 ^ -33` of a second, less than half a nanosecond
    apply roundDiv_eq_of_near pos_one
    · simp only [nanosPerSecond] at *
      linarith
    · simp only [nanosPerSecond] at *
      linarith
  have hrange : b.base.nanos * g ^ min attempt maxExponent < UInt64.size * nanosPerSecond :=
    Nat.lt_trans hlt b.cap.inRange
  have hspan : Span.ofNanos? (b.base.nanos * g ^ min attempt maxExponent) = some ⟨_, hrange⟩ :=
    Span.ofNanos?_eq_some_iff.mpr rfl
  refine ⟨⟨_, hrange⟩, ?_, rfl⟩
  rw [delay?_of_below hfinite (h.not_cut hlt),
    Span.ofSecondsFloat?_of_nonneg (rank_scaled_nonneg h.toIsSound) hfinite, hnanos, hspan,
    Option.map_some, Option.some.injEq]
  apply Span.eq_of_nanos
  rw [Span.nanos_min]
  exact Nat.min_eq_left (Nat.le_of_lt hlt)

theorem IsWhole.lt_units_scaled (h : b.IsWhole g)
    (hge : b.cap.nanos ≤ b.base.nanos * g ^ min attempt maxExponent)
    (hfinite : (b.scaled attempt).isFinite = true) :
    2 * (b.cap.nanos * one) < 2 * ((b.scaled attempt).units * nanosPerSecond) + one := by
  have hcap := h.cap_lt
  have hcounts := h.counts attempt
  have hpow := h.pow_pos attempt
  have hleast := hcounts.least_le
  have hfactor := (isFinite_of_mul (isNaN_of_isFinite b.base.isFinite_toSeconds) hcounts.isNaN_eq
    (Span.value_toSeconds_pos h.base_pos) (hcounts.value_pos (by omega)) hfinite).2
  generalize hm : min (g ^ min attempt maxExponent) (2 ^ 52) = m at *
  have hmpos : 0 < m := by omega
  have hcount : (ofNat m).isFinite = true := isFinite_ofNat (by omega)
  have hvalue : (ofNat m).value = (m * one : Nat) := value_ofNat (by omega)
  have hrank : (b.base.toSeconds * ofNat m).rank ≤ (b.scaled attempt).rank := by
    rw [scaled, rank_mul b.base.isFinite_toSeconds hcount, rank_mul b.base.isFinite_toSeconds hfactor]
    apply nearestRank_mono pos_one pos_one
    apply Int.mul_le_mul_of_nonneg_right _ (Int.natCast_nonneg one)
    rw [hvalue]
    exact Int.mul_le_mul_of_nonneg_left hleast b.base.value_toSeconds_nonneg
  have hnonneg : 0 ≤ (b.base.toSeconds * ofNat m).rank :=
    rank_nonneg (negative_mul (negative_toSeconds _) (negative_ofUnits _ _ _))
  have hproduct := isFinite_of_between isFinite_zero hfinite (by rwa [rank_zero]) hrank
  have hnear := (Span.units_toSeconds_mul_near h.base_pos h.base_seconds_lt hmpos hcount hvalue
    hproduct).2
  have hunits := units_le_units hnonneg hrank (isNaN_of_isFinite hfinite)
  have hreach : b.cap.nanos ≤ b.base.nanos * m := by
    rcases Nat.le_total (g ^ min attempt maxExponent) (2 ^ 52) with hle | hle
    · rw [← hm, Nat.min_eq_left hle]
      exact hge
    · have hbase := Nat.le_mul_of_pos_left m h.base_pos
      simp only [nanosPerSecond] at hcap
      omega
  have hreached := Nat.mul_le_mul_right one hreach
  have hbelow := Nat.mul_lt_mul_of_pos_right hcap pos_one
  simp only [nanosPerSecond] at *
  linarith

theorem IsWhole.delay?_of_le (h : b.IsWhole g)
    (hge : b.cap.nanos ≤ b.base.nanos * g ^ min attempt maxExponent) :
    b.delay? attempt = some b.cap := by
  cases hfinite : (b.scaled attempt).isFinite with
  | false => exact delay?_of_not_isFinite hfinite
  | true =>
    cases hcut : b.cap.toSeconds.le (b.scaled attempt) with
    | true => exact delay?_of_cut hcut
    | false =>
      have hfar := h.lt_units_scaled hge hfinite
      obtain ⟨delay, hdelay, -⟩ := h.exists_delay attempt
      rw [delay?_of_below hfinite hcut] at hdelay ⊢
      obtain ⟨seconds, hseconds, -⟩ := Option.map_eq_some_iff.mp hdelay
      rw [hseconds, Option.map_some, Option.some.injEq]
      apply Span.eq_of_nanos
      rw [Span.nanos_min]
      apply Nat.min_eq_right
      rw [Span.ofSecondsFloat?_of_nonneg (rank_scaled_nonneg h.toIsSound) hfinite,
        Span.ofNanos?_eq_some_iff] at hseconds
      have hround := le_roundDiv_mul ((b.scaled attempt).units * nanosPerSecond) one pos_one
      change _ ≤ 2 * (Span.nanosOfUnits _ * one) + one at hround
      rw [← hseconds] at hround
      apply Nat.le_of_lt_succ
      apply Nat.lt_of_mul_lt_mul_right (a := one)
      rw [Nat.succ_mul]
      omega

theorem IsWhole.min_pow_maxExponent (h : b.IsWhole g) (attempt : Nat) :
    min b.cap.nanos (b.base.nanos * g ^ min attempt maxExponent) =
      min b.cap.nanos (b.base.nanos * g ^ attempt) := by
  have hfar : 53 ≤ maxExponent := by decide
  generalize maxExponent = last at *
  rcases Nat.le_total attempt last with hle | hle
  · rw [Nat.min_eq_left hle]
  rw [Nat.min_eq_right hle]
  by_cases hone : g = 1
  · rw [hone, Nat.one_pow, Nat.one_pow]
  · have hg := h.growth_pos
    have hcap := h.cap_lt
    have hbeyond {k : Nat} (hk : 53 ≤ k) : b.cap.nanos ≤ b.base.nanos * g ^ k := by
      have hpow : 2 ^ 53 ≤ g ^ k :=
        Nat.le_trans (Nat.pow_le_pow_right (by decide) hk) (Nat.pow_le_pow_left (by omega) k)
      have hproduct := Nat.le_mul_of_pos_left (g ^ k) h.base_pos
      simp only [nanosPerSecond] at hcap
      omega
    rw [Nat.min_eq_left (hbeyond hfar), Nat.min_eq_left (hbeyond (Nat.le_trans hfar hle))]

theorem IsWhole.exists_delay_eq (h : b.IsWhole g) (attempt : Nat) :
    ∃ delay, b.delay? attempt = some delay ∧
      delay.nanos = min b.cap.nanos (b.base.nanos * g ^ attempt) := by
  rw [← h.min_pow_maxExponent]
  rcases Nat.lt_or_ge (b.base.nanos * g ^ min attempt maxExponent) b.cap.nanos with hlt | hge
  · rw [Nat.min_eq_right (Nat.le_of_lt hlt)]
    exact h.delay?_of_lt hlt
  · rw [Nat.min_eq_left hge]
    exact ⟨b.cap, h.delay?_of_le hge, rfl⟩

/-- Under a checked backoff with a whole growth factor and a cap of less than `2 ^ 20` seconds the
delay after an attempt is the base times that power of the factor, to the nanosecond, cut at the cap.
So delays never get shorter, and once the cap is reached they stay there. -/
theorem delay_eq_min_pow (hcheck : b.check = .ok ()) (hwhole : b.growth.value = (g * one : Nat))
    (hcap : b.cap.nanos < 2 ^ 20 * nanosPerSecond) :
    (∀ attempt, ∃ delay, b.delay? attempt = some delay ∧
      delay.nanos = min b.cap.nanos (b.base.nanos * g ^ attempt)) ∧
    ∀ first later delay delay', first ≤ later → b.delay? first = some delay →
      b.delay? later = some delay' → delay ≤ delay' ∧ (delay = b.cap → delay' = b.cap) := by
  have h := isWhole_of_check hcheck hwhole hcap
  refine ⟨h.exists_delay_eq, ?_⟩
  intro first later delay delay' hle hdelay hdelay'
  obtain ⟨exact, hexact, hnanos⟩ := h.exists_delay_eq first
  obtain ⟨exact', hexact', hnanos'⟩ := h.exists_delay_eq later
  obtain rfl : delay = exact := Option.some.inj (hdelay.symm.trans hexact)
  obtain rfl : delay' = exact' := Option.some.inj (hdelay'.symm.trans hexact')
  have hpow := Nat.mul_le_mul_left b.base.nanos (Nat.pow_le_pow_right h.growth_pos hle)
  constructor
  · change delay.nanos ≤ delay'.nanos
    omega
  · rintro rfl
    apply Span.eq_of_nanos
    omega

def tripling : Backoff := ⟨20, ⟨333333333, by decide⟩, ⟨86400000000001, by decide⟩, 0, 3⟩

theorem delay_eq_min_pow_tripling : tripling.check = .ok () ∧
    tripling.growth.value = (3 * one : Nat) ∧ tripling.cap.nanos < 2 ^ 20 * nanosPerSecond ∧
    (∃ delay, tripling.delay? 11 = some delay ∧ delay.nanos = 59048999940951) ∧
    tripling.delay? 4294967295 = some tripling.cap := by
  have hcheck : tripling.check = .ok () := by decide +kernel
  have hthree : (3 : Binary64).value = (3 * one : Nat) := value_ofNat (n := 3) (by decide)
  have hwhole : tripling.growth.value = (3 * one : Nat) := hthree
  have hcap : tripling.cap.nanos < 2 ^ 20 * nanosPerSecond := by decide
  obtain ⟨hdelay, hlater⟩ := delay_eq_min_pow hcheck hwhole hcap
  obtain ⟨below, hbelow, hnanos⟩ := hdelay 11
  obtain ⟨cut, hcut, hcut'⟩ := hdelay 12
  obtain ⟨last, hlast, -⟩ := hdelay 4294967295
  have hstays := (hlater 12 4294967295 cut last (by decide) hcut hlast).2 (Span.eq_of_nanos hcut')
  exact ⟨hcheck, hwhole, hcap, ⟨below, hbelow, hnanos⟩, hstays ▸ hlast⟩

end LeaseLock.Backoff
