import LeaseLock.Proofs.Lock.Curve

namespace LeaseLock.Backoff

open Binary64

variable {b : Backoff} {attempt : Nat} {word : UInt64} {delay wait low high : Span}

theorem rank_base_le_scaled (hbase : 0 < b.base.nanos) (hgrowth : b.growth.Reaches 1)
    (hfinite : (b.scaled attempt).isFinite = true) :
    b.base.toSeconds.rank ≤ (b.scaled attempt).rank := by
  have hpow := reaches_pow hgrowth (min attempt maxExponent)
  have hfactor := (isFinite_of_mul (isNaN_of_isFinite b.base.isFinite_toSeconds) hpow.isNaN_eq
    (Span.value_toSeconds_pos hbase) (hpow.value_pos Nat.one_pos) hfinite).2
  have hleast := hpow.least_le
  rw [Nat.one_mul] at hleast
  rw [scaled, rank_mul b.base.isFinite_toSeconds hfactor,
    ← nearestRank_value pos_one (isNaN_of_isFinite b.base.isFinite_toSeconds)]
  apply nearestRank_mono pos_one pos_one
  apply Int.mul_le_mul_of_nonneg_right _ (Int.natCast_nonneg one)
  exact Int.mul_le_mul_of_nonneg_left hleast b.base.value_toSeconds_nonneg

theorem delay_pos (hcheck : b.check = .ok ()) (hdelay : b.delay? attempt = some delay) :
    0 < delay.nanos := by
  have hsound := isSound_of_check hcheck
  have hdemands := b.enforces_check.ok_iff.mp hcheck
  simp only [demands, List.forall_mem_cons] at hdemands
  obtain ⟨hbase, hcap, -, ⟨hfinite, hge⟩, -⟩ := hdemands
  have hgrowth : b.growth.Reaches 1 := ⟨isNaN_of_isFinite hfinite, by rwa [Nat.one_mul]⟩
  have hpos : 0 < b.cap.nanos := Nat.lt_of_lt_of_le hbase hcap
  cases hscaled : (b.scaled attempt).isFinite with
  | false =>
    obtain rfl := Option.some.inj (hdelay.symm.trans (delay?_of_not_isFinite hscaled))
    exact hpos
  | true =>
    cases hcut : b.cap.toSeconds.le (b.scaled attempt) with
    | true =>
      obtain rfl := Option.some.inj (hdelay.symm.trans (delay?_of_cut hcut))
      exact hpos
    | false =>
      rw [delay?_of_below hscaled hcut] at hdelay
      obtain ⟨seconds, hseconds, rfl⟩ := Option.map_eq_some_iff.mp hdelay
      rw [Span.ofSecondsFloat?_of_nonneg (rank_scaled_nonneg hsound) hscaled,
        Span.ofNanos?_eq_some_iff] at hseconds
      have hunits := units_le_units b.base.rank_toSeconds_nonneg
        (rank_base_le_scaled hbase hgrowth hscaled) (isNaN_of_isFinite hscaled)
      have hleast := Span.nanosOfUnits_pos (Span.one_lt_units_toSeconds hbase)
      have hmono := Span.nanosOfUnits_mono hunits
      rw [Span.nanos_min]
      omega

theorem IsSound.jittered?_between (h : b.IsSound) (hpos : 0 < b.jitter.value)
    (hdelay : b.delay? attempt = some delay) (hsome : delay.isZero = false)
    (hwait : b.jittered? attempt word = some wait) (hlow : delay.scale? (1 - b.jitter) = some low)
    (hhigh : delay.scale? (1 + b.jitter) = some high) :
    min low b.cap ≤ wait ∧ wait ≤ min high b.cap := by
  obtain ⟨seconds, hseconds, hnonneg, hshrunk, hstretched⟩ := h.jittered?_of_pos hpos hdelay hsome word
  rw [hseconds, Option.map_eq_some_iff] at hwait
  obtain ⟨spread, hspread, rfl⟩ := hwait
  have hmin {s t : Span} (hle : s ≤ t) : min s b.cap ≤ min t b.cap := by
    change s.nanos ≤ t.nanos at hle
    change (min s b.cap).nanos ≤ (min t b.cap).nanos
    rw [Span.nanos_min, Span.nanos_min]
    omega
  constructor
  · obtain ⟨least, hleast, hle⟩ := Span.exists_ofSecondsFloat?_le hnonneg hshrunk hspread
    obtain rfl := Option.some.inj (hlow.symm.trans hleast)
    exact hmin hle
  · obtain ⟨spread', hspread', hle⟩ :=
      Span.exists_ofSecondsFloat?_le (Int.le_trans hnonneg hshrunk) hstretched hhigh
    obtain rfl := Option.some.inj (hspread.symm.trans hspread')
    exact hmin hle

end LeaseLock.Backoff
