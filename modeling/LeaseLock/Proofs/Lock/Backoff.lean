import LeaseLock.Proofs.Lock.Demand
import LeaseLock.Proofs.Time.Seconds

namespace LeaseLock.Backoff

open Binary64

variable {b : Backoff} {attempt : Nat} {word : UInt64} {delay longest wait : Span}

structure IsSound (b : Backoff) : Prop where
  base_le : b.base.nanos ≤ b.cap.nanos
  jitter_finite : b.jitter.isFinite = true
  jitter_nonneg : 0 ≤ b.jitter.value
  jitter_le : b.jitter.value ≤ one
  growth_ge : one ≤ b.growth.value

theorem isSound_of_check (h : b.check = .ok ()) : b.IsSound := by
  have hdemands := b.enforces_check.ok_iff.mp h
  simp only [demands, List.forall_mem_cons] at hdemands
  obtain ⟨-, hbase, ⟨hfinite, hnonneg, hle⟩, ⟨-, hgrowth⟩, -⟩ := hdemands
  exact ⟨hbase, hfinite, hnonneg, hle, hgrowth⟩

theorem min_cap_le (b : Backoff) (s : Span) : min s b.cap ≤ b.cap := by
  change (min s b.cap).nanos ≤ b.cap.nanos
  rw [Span.nanos_min]
  exact Nat.min_le_right _ _

theorem negative_toSeconds (s : Span) : s.toSeconds.negative = false := by
  apply negative_add (negative_ofUnits _ _ _)
  exact negative_div (negative_ofUnits _ _ _) (negative_ofUnits _ _ _)

theorem IsSound.negative_growth (h : b.IsSound) : b.growth.negative = false := by
  have hge := h.growth_ge
  have hpos := pos_one
  rw [Bool.eq_false_iff]
  intro hneg
  rw [value, if_pos hneg] at hge
  omega

theorem IsSound.exists_delay (h : b.IsSound) (attempt : Nat) :
    ∃ delay, b.delay? attempt = some delay ∧ delay ≤ b.cap := by
  have hsign : (b.base.toSeconds * b.growth.pow (min attempt maxExponent)).negative = false :=
    negative_mul (negative_toSeconds _) (negative_pow h.negative_growth _)
  simp only [delay?]
  generalize b.base.toSeconds * b.growth.pow (min attempt maxExponent) = scaled at *
  by_cases hcut : (!scaled.isFinite || b.cap.toSeconds.le scaled) = true
  · rw [if_pos hcut]
    exact ⟨b.cap, rfl, Nat.le_refl _⟩
  · rw [if_neg hcut]
    simp only [Bool.or_eq_true, Bool.not_eq_true', not_or, Bool.not_eq_false] at hcut
    obtain ⟨hfinite, hbelow⟩ := hcut
    rw [le_iff (isNaN_of_isFinite b.cap.isFinite_toSeconds) (isNaN_of_isFinite hfinite)] at hbelow
    have hlimit := b.cap.rank_toSeconds_le
    obtain ⟨seconds, hseconds⟩ := Option.isSome_iff_exists.mp
      (Span.ofSecondsFloat?_isSome_iff.mpr ⟨rank_nonneg hsign, by omega⟩)
    rw [hseconds]
    exact ⟨min seconds b.cap, rfl, min_cap_le b seconds⟩

theorem IsSound.exists_width (h : b.IsSound) : ∃ width, b.jitterWidth? = some width ∧
    width.isFinite = true ∧ width.value = 2 * b.jitter.value := by
  obtain ⟨hfinite, hvalue⟩ := value_sub_neg h.jitter_finite h.jitter_nonneg h.jitter_le
  refine ⟨b.jitter - -b.jitter, ?_, hfinite, hvalue⟩
  simp only [jitterWidth?, h.jitter_finite, hfinite, Bool.and_self, if_true]

theorem unitOfWord_between (word : UInt64) : (unitOfWord word).isFinite = true ∧
    0 ≤ (unitOfWord word).value ∧ (unitOfWord word).value ≤ one := by
  have htwo : (2 : Binary64).rank = 1024 * fieldUnit := by decide +kernel
  have hone : (1 : Binary64).rank = 1023 * fieldUnit := by decide +kernel
  have hword := word.toNat_lt
  generalize hy : Binary64.mk (0x3ff0000000000000 + word / 4096) = y
  -- the fraction of a double between one and two
  have hbits : y.bits.toNat = 1023 * fieldUnit + word.toNat / 4096 := by
    rw [← hy, fieldUnit_eq, UInt64.toNat_add, UInt64.toNat_div]
    apply Nat.mod_eq_of_lt
    simp only [UInt64.reduceToNat]
    omega
  have hrank : y.rank = 1023 * fieldUnit + word.toNat / 4096 := by
    have hsign : y.negative = false := by
      simp only [negative, hbits, fieldUnit_eq, signUnit_eq, decide_eq_false_iff_not]
      omega
    simp only [rank, hsign, Binary64.word, hbits, fieldUnit_eq, signUnit_eq, Bool.false_eq_true,
      if_false]
    omega
  have hlow : (1 : Binary64).rank ≤ y.rank := by
    rw [hone, hrank, fieldUnit_eq]
    omega
  have hhigh : y.rank ≤ (2 : Binary64).rank := by
    rw [htwo, hrank, fieldUnit_eq]
    omega
  have hfinite := isFinite_of_between isFinite_one isFinite_two hlow hhigh
  rw [rank_le_iff isFinite_one hfinite, value_one] at hlow
  rw [rank_le_iff hfinite isFinite_two, value_two] at hhigh
  rw [unitOfWord, hy, ← value_zero, ← value_one]
  apply between_of_nearest (rank_sub hfinite isFinite_one) Nat.one_pos isFinite_zero isFinite_one
  · rw [value_zero, value_one]
    omega
  · rw [value_one]
    omega

def offset (b : Backoff) (width : Binary64) (word : UInt64) : Binary64 :=
  unitOfWord word * width + -b.jitter

theorem IsSound.offset_between (h : b.IsSound) {width : Binary64} (hfinite : width.isFinite = true)
    (hwidth : width.value = 2 * b.jitter.value) (word : UInt64) :
    (b.offset width word).isFinite = true ∧ -b.jitter.value ≤ (b.offset width word).value ∧
      (b.offset width word).value ≤ b.jitter.value := by
  obtain ⟨hunit, hunit0, hunit1⟩ := unitOfWord_between word
  have hnonneg := h.jitter_nonneg
  obtain ⟨hshare, hshare0, hshare1⟩ := between_of_nearest (rank_mul hunit hfinite) pos_one
    isFinite_zero hfinite
    (by
      rw [value_zero, Int.zero_mul]
      exact Int.mul_nonneg hunit0 (by omega))
    (by
      rw [Int.mul_comm width.value]
      exact Int.mul_le_mul_of_nonneg_right hunit1 (by omega))
  rw [value_zero] at hshare0
  have hneg := value_neg (isNaN_of_isFinite h.jitter_finite)
  have hsum := between_of_nearest (rank_add hshare (isFinite_neg h.jitter_finite)) Nat.one_pos
    (isFinite_neg h.jitter_finite) h.jitter_finite (by omega) (by omega)
  rw [hneg] at hsum
  exact hsum

theorem IsSound.shrink_between (h : b.IsSound) : (1 - b.jitter).isFinite = true ∧
    0 ≤ (1 - b.jitter).value := by
  have hnonneg := h.jitter_nonneg
  have hle := h.jitter_le
  have hbetween := between_of_nearest (rank_sub isFinite_one h.jitter_finite) Nat.one_pos
    isFinite_zero isFinite_one (by rw [value_zero, value_one]; omega) (by rw [value_one]; omega)
  rw [value_zero] at hbetween
  exact ⟨hbetween.1, hbetween.2.1⟩

theorem IsSound.stretch_between (h : b.IsSound) : (1 + b.jitter).isFinite = true ∧
    0 ≤ (1 + b.jitter).value ∧ (1 + b.jitter).value ≤ 2 * one := by
  have hnonneg := h.jitter_nonneg
  have hle := h.jitter_le
  rw [← value_zero, ← value_two]
  apply between_of_nearest (rank_add isFinite_one h.jitter_finite) Nat.one_pos isFinite_zero
    isFinite_two
  · rw [value_zero, value_one]
    omega
  · rw [value_one, value_two]
    omega

theorem IsSound.spread_between (h : b.IsSound) {width : Binary64} (hfinite : width.isFinite = true)
    (hwidth : width.value = 2 * b.jitter.value) (delay : Span) (word : UInt64) :
    0 ≤ ((1 - b.jitter) * delay.toSeconds).rank ∧
      ((1 - b.jitter) * delay.toSeconds).rank ≤
        (delay.toSeconds * (1 + b.offset width word)).rank ∧
      (delay.toSeconds * (1 + b.offset width word)).rank ≤
        ((1 + b.jitter) * delay.toSeconds).rank := by
  obtain ⟨hoffset, hlow, hhigh⟩ := h.offset_between hfinite hwidth word
  obtain ⟨hshrink, hshrink0⟩ := h.shrink_between
  obtain ⟨hstretch, -, -⟩ := h.stretch_between
  have hseconds := delay.isFinite_toSeconds
  have hseconds0 := delay.value_toSeconds_nonneg
  have hbelow : (1 - b.jitter).rank ≤ (1 + b.offset width word).rank := by
    rw [rank_sub isFinite_one h.jitter_finite, rank_add isFinite_one hoffset]
    exact nearestRank_mono Nat.one_pos Nat.one_pos (by omega)
  have habove : (1 + b.offset width word).rank ≤ (1 + b.jitter).rank := by
    rw [rank_add isFinite_one h.jitter_finite, rank_add isFinite_one hoffset]
    exact nearestRank_mono Nat.one_pos Nat.one_pos (by omega)
  have hfactor := isFinite_of_between hshrink hstretch hbelow habove
  rw [rank_le_iff hshrink hfactor] at hbelow
  rw [rank_le_iff hfactor hstretch] at habove
  have hproduct : 0 ≤ (1 - b.jitter).value * delay.toSeconds.value :=
    Int.mul_nonneg hshrink0 hseconds0
  rw [rank_mul hshrink hseconds, rank_mul hseconds hfactor, rank_mul hstretch hseconds,
    Int.mul_comm delay.toSeconds.value]
  refine ⟨?_, ?_, ?_⟩
  · rw [nearestRank, if_neg (Int.not_lt.mpr hproduct)]
    exact Int.natCast_nonneg _
  · apply nearestRank_mono pos_one pos_one
    apply Int.mul_le_mul_of_nonneg_right _ (Int.natCast_nonneg _)
    exact Int.mul_le_mul_of_nonneg_right hbelow hseconds0
  · apply nearestRank_mono pos_one pos_one
    apply Int.mul_le_mul_of_nonneg_right _ (Int.natCast_nonneg _)
    exact Int.mul_le_mul_of_nonneg_right habove hseconds0

theorem longestWait?_eq (hdelay : b.delay? attempt = some delay) :
    b.longestWait? attempt = (delay.scale? (1 + b.jitter)).map (min · b.cap) := by
  rw [longestWait?, hdelay]
  cases hscale : delay.scale? (1 + b.jitter) <;> simp [hscale]

/-- The choice is unfolded as a function: unfolded at an attempt it would have the delay evaluated. -/
theorem wait_eq_of_choice {choice : Wait} (hdelay : b.delay? attempt = some delay)
    (h : (if b.jitter.le 0 || delay.isZero then .steady delay
      else match b.jitterWidth? with
        | some width => .spread delay width
        | Option.none => .overflow) = choice) : b.wait attempt = choice := by
  have hwait : ∀ f, Backoff.wait = f → f b attempt = choice := by
    intro f hf
    delta Backoff.wait at hf
    subst hf
    beta_reduce
    rw [hdelay]
    exact h
  exact hwait _ rfl

theorem IsSound.jittered?_of_zero (h : b.IsSound) (hzero : b.jitter.value = 0) (attempt : Nat)
    (word : UInt64) : b.jittered? attempt word = b.delay? attempt := by
  obtain ⟨delay, hdelay, -⟩ := h.exists_delay attempt
  have hjitter : b.jitter.le 0 = true := by
    rw [le_iff_value h.jitter_finite isFinite_zero, value_zero, hzero]
  have hwait : b.wait attempt = .steady delay := by
    apply wait_eq_of_choice hdelay
    rw [hjitter, Bool.true_or, if_pos rfl]
  rw [jittered?, hwait, settle?, hdelay]

theorem jittered?_of_isZero (hdelay : b.delay? attempt = some delay) (hnone : delay.isZero = true)
    (word : UInt64) : b.jittered? attempt word = some delay := by
  have hwait : b.wait attempt = .steady delay := by
    apply wait_eq_of_choice hdelay
    rw [hnone, Bool.or_true, if_pos rfl]
  rw [jittered?, hwait, settle?]

theorem notNegative_of_rank_nonneg {x : Binary64} (hx : x.isNaN = false) (h : 0 ≤ x.rank) :
    notNegative x = x := by
  have hsign : x.lt 0 = false := by
    rw [Bool.eq_false_iff, Ne, lt_iff hx (isNaN_of_isFinite isFinite_zero), rank_zero]
    omega
  rw [notNegative, hx, hsign, Bool.or_self, if_neg Bool.false_ne_true]

theorem settle?_spread (b : Backoff) (delay : Span) (width : Binary64) (word : UInt64) :
    b.settle? (.spread delay width) word =
      (Span.ofSecondsFloat? (notNegative (delay.toSeconds * (1 + b.offset width word)))).map
        (min · b.cap) := rfl

theorem IsSound.exists_wait (h : b.IsSound) (hpos : 0 < b.jitter.value)
    (hdelay : b.delay? attempt = some delay) (hsome : delay.isZero = false) :
    ∃ width, b.wait attempt = .spread delay width ∧ width.isFinite = true ∧
      width.value = 2 * b.jitter.value := by
  obtain ⟨width, heq, hwidth⟩ := h.exists_width
  have hjitter : b.jitter.le 0 = false := by
    rw [Bool.eq_false_iff, Ne, le_iff_value h.jitter_finite isFinite_zero, value_zero]
    omega
  refine ⟨width, ?_, hwidth⟩
  apply wait_eq_of_choice hdelay
  rw [hjitter, hsome, Bool.or_self, if_neg Bool.false_ne_true, heq]

theorem IsSound.jittered?_of_pos (h : b.IsSound) (hpos : 0 < b.jitter.value)
    (hdelay : b.delay? attempt = some delay) (hsome : delay.isZero = false) (word : UInt64) :
    ∃ seconds : Binary64, b.jittered? attempt word =
        (Span.ofSecondsFloat? seconds).map (min · b.cap) ∧
      0 ≤ ((1 - b.jitter) * delay.toSeconds).rank ∧
      ((1 - b.jitter) * delay.toSeconds).rank ≤ seconds.rank ∧
      seconds.rank ≤ ((1 + b.jitter) * delay.toSeconds).rank := by
  obtain ⟨width, hwait, hfinite, hwidth⟩ := h.exists_wait hpos hdelay hsome
  obtain ⟨hnonneg, hlow, hhigh⟩ := h.spread_between hfinite hwidth delay word
  have hsettled : notNegative (delay.toSeconds * (1 + b.offset width word)) =
      delay.toSeconds * (1 + b.offset width word) := by
    apply notNegative_of_rank_nonneg
    · have hbound := isNaN_of_rank_eq (rank_mul h.stretch_between.1 delay.isFinite_toSeconds)
      rw [isNaN_eq_false_iff] at *
      omega
    · omega
  refine ⟨_, ?_, hnonneg, hlow, hhigh⟩
  rw [jittered?, hwait, settle?_spread, hsettled]

theorem IsSound.jittered?_le_cap (h : b.IsSound) (hwait : b.jittered? attempt word = some wait) :
    wait ≤ b.cap := by
  obtain ⟨delay, hdelay, hle⟩ := h.exists_delay attempt
  rcases Int.lt_or_eq_of_le h.jitter_nonneg with hpos | hzero
  · cases hsome : delay.isZero with
    | true =>
      rw [jittered?_of_isZero hdelay hsome] at hwait
      cases hwait
      exact hle
    | false =>
      obtain ⟨seconds, hseconds, -⟩ := h.jittered?_of_pos hpos hdelay hsome word
      rw [hseconds, Option.map_eq_some_iff] at hwait
      obtain ⟨spread, -, rfl⟩ := hwait
      exact min_cap_le b spread
  · rw [h.jittered?_of_zero hzero.symm, hdelay] at hwait
    cases hwait
    exact hle

theorem IsSound.exists_jittered_le (h : b.IsSound) (hpos : 0 < b.jitter.value)
    (hlongest : b.longestWait? attempt = some longest) (word : UInt64) :
    ∃ wait, b.jittered? attempt word = some wait ∧ wait ≤ longest := by
  obtain ⟨delay, hdelay, -⟩ := h.exists_delay attempt
  cases hsome : delay.isZero with
  | true =>
    refine ⟨delay, jittered?_of_isZero hdelay hsome word, ?_⟩
    change delay.nanos ≤ longest.nanos
    rw [Span.isZero, beq_iff_eq] at hsome
    omega
  | false =>
    obtain ⟨seconds, hseconds, hnonneg, hlow, hhigh⟩ := h.jittered?_of_pos hpos hdelay hsome word
    rw [longestWait?_eq hdelay, Option.map_eq_some_iff] at hlongest
    obtain ⟨stretched, hstretched, rfl⟩ := hlongest
    obtain ⟨spread, hspread, hle⟩ :=
      Span.exists_ofSecondsFloat?_le (Int.le_trans hnonneg hlow) hhigh hstretched
    refine ⟨min spread b.cap, by rw [hseconds, hspread, Option.map_some], ?_⟩
    change spread.nanos ≤ stretched.nanos at hle
    change (min spread b.cap).nanos ≤ (min stretched b.cap).nanos
    rw [Span.nanos_min, Span.nanos_min]
    omega

theorem IsSound.longestWait?_of_zero (h : b.IsSound) (hzero : b.jitter.value = 0)
    (hdelay : b.delay? attempt = some delay) (hsmall : delay.nanos ≤ 2 ^ 23 * nanosPerSecond) :
    b.longestWait? attempt = some delay := by
  have hone : (1 + b.jitter).rank = (1 : Binary64).rank := by
    rw [rank_add isFinite_one h.jitter_finite, hzero, Int.add_zero,
      ← nearestRank_value Nat.one_pos (isNaN_of_isFinite isFinite_one), Int.natCast_one, Int.mul_one]
  have hproduct : ((1 + b.jitter) * delay.toSeconds).rank = delay.toSeconds.rank := by
    rw [rank_mul h.stretch_between.1 delay.isFinite_toSeconds, value_eq (1 + b.jitter), hone,
      ← value_eq, value_one, Int.mul_comm,
      nearestRank_value pos_one (isNaN_of_isFinite delay.isFinite_toSeconds)]
  have hscale : delay.scale? (1 + b.jitter) = some delay := by
    rw [Span.scale?, Span.ofSecondsFloat?_of_rank_eq hproduct (Span.ofSecondsFloat?_toSeconds hsmall)]
  obtain ⟨again, hagain, hle⟩ := h.exists_delay attempt
  obtain rfl : delay = again := Option.some.inj (hdelay.symm.trans hagain)
  rw [longestWait?_eq hdelay, hscale, Option.map_some, Option.some.injEq]
  apply Span.eq_of_nanos
  rw [Span.nanos_min]
  exact Nat.min_eq_left hle

def StretchFits (b : Backoff) (delay : Span) : Prop :=
  ((1 + b.jitter) * delay.toSeconds).value < (2 ^ 64 * one : Nat)

theorem IsSound.stretched_between (h : b.IsSound) (delay : Span) {top : Binary64}
    (htop : top.isFinite = true) (hle : 2 * delay.toSeconds.value ≤ top.value) :
    ((1 + b.jitter) * delay.toSeconds).isFinite = true ∧
      0 ≤ ((1 + b.jitter) * delay.toSeconds).value ∧
      ((1 + b.jitter) * delay.toSeconds).value ≤ top.value := by
  obtain ⟨hstretch, hstretch0, hstretch2⟩ := h.stretch_between
  have hseconds := delay.isFinite_toSeconds
  have hseconds0 := delay.value_toSeconds_nonneg
  rw [← value_zero]
  apply between_of_nearest (rank_mul hstretch hseconds) pos_one isFinite_zero htop
  · rw [value_zero, Int.zero_mul]
    exact Int.mul_nonneg hstretch0 hseconds0
  · calc (1 + b.jitter).value * delay.toSeconds.value
        ≤ 2 * one * delay.toSeconds.value := Int.mul_le_mul_of_nonneg_right hstretch2 hseconds0
      _ = 2 * delay.toSeconds.value * one := Int.mul_right_comm _ _ _
      _ ≤ top.value * one := Int.mul_le_mul_of_nonneg_right hle (Int.natCast_nonneg _)

theorem IsSound.scale?_isSome_iff (h : b.IsSound) (delay : Span) :
    (delay.scale? (1 + b.jitter)).isSome ↔ b.StretchFits delay := by
  obtain ⟨top, htop, htop'⟩ : ∃ top : Binary64, top.isFinite = true ∧
      top.value = (2 * (2 ^ 64 * one) : Nat) := ⟨pack false (1088 * fieldUnit), by decide +kernel⟩
  have hle := delay.value_toSeconds_le
  obtain ⟨hfinite, hnonneg, -⟩ := h.stretched_between delay htop (by rw [htop']; omega)
  rw [Span.scale?, Span.ofSecondsFloat?_isSome_iff, StretchFits, Span.rank_lt_limitWord_iff hfinite]
  exact and_iff_right ((rank_nonneg_iff hfinite).mpr hnonneg)

theorem IsSound.stretchFits_of_half (h : b.IsSound)
    (hhalf : delay.nanos ≤ (2 ^ 63 - 1024) * nanosPerSecond) : b.StretchFits delay := by
  obtain ⟨top, htop, htop'⟩ : ∃ top : Binary64, top.isFinite = true ∧
      top.value = ((2 ^ 64 - 2048) * one : Nat) :=
    ⟨pack false (Span.limitWord - 1), by decide +kernel⟩
  have hle := Span.value_toSeconds_le_of_half hhalf
  have hpos := pos_one
  obtain ⟨-, -, hbelow⟩ := h.stretched_between delay htop (by rw [htop']; omega)
  rw [StretchFits]
  rw [htop'] at hbelow
  omega

theorem IsSound.longestWait?_isSome_iff (h : b.IsSound) (hdelay : b.delay? attempt = some delay) :
    (b.longestWait? attempt).isSome ↔ b.StretchFits delay := by
  rw [longestWait?_eq hdelay, Option.isSome_map, h.scale?_isSome_iff]

theorem longestWaitsFrom?_isSome_iff (b : Backoff) (attempt : Nat) (total : Span) (count : Nat) :
    (b.longestWaitsFrom? attempt total count).isSome ↔
      ∀ k < count, (b.longestWait? (attempt + k)).isSome := by
  induction count generalizing attempt total with
  | zero => simp [longestWaitsFrom?]
  | succ count ih =>
    have hsplit : (∀ k < count + 1, (b.longestWait? (attempt + k)).isSome) ↔
        (b.longestWait? attempt).isSome ∧
          ∀ k < count, (b.longestWait? (attempt + 1 + k)).isSome := by
      rw [Nat.forall_lt_succ_left]
      simp only [Nat.add_zero, Nat.add_assoc, Nat.add_comm 1]
    rw [longestWaitsFrom?, hsplit]
    cases b.longestWait? attempt with
    | none => simp
    | some wait =>
      simp only [Option.isSome_some, true_and]
      exact ih _ _

/-- Under a checked backoff the deterministic wait exists and keeps under the cap, and so does a
spread wait if the stretched delay is below `2 ^ 64` seconds. The worst case exists if the delay of
every retry is; a cap of `2 ^ 63 - 1024` seconds sees to it. -/
theorem waits_within_cap (h : b.check = .ok ()) :
    (∀ attempt, ∃ delay, b.delay? attempt = some delay ∧ delay ≤ b.cap ∧
      ∀ word, (∀ wait, b.jittered? attempt word = some wait → wait ≤ b.cap) ∧
        (b.jitter.value = 0 ∨ b.StretchFits delay → (b.jittered? attempt word).isSome)) ∧
      (∀ terms : Terms, terms.backoff = b → (terms.worstCase?.isSome ↔
        ∀ attempt < b.retries.toNat, ∀ delay, b.delay? attempt = some delay →
          b.StretchFits delay)) ∧
      (b.cap.nanos ≤ (2 ^ 63 - 1024) * nanosPerSecond → ∀ delay ≤ b.cap, b.StretchFits delay) := by
  have hsound := isSound_of_check h
  refine ⟨?_, ?_, ?_⟩
  · intro attempt
    obtain ⟨delay, hdelay, hle⟩ := hsound.exists_delay attempt
    refine ⟨delay, hdelay, hle, ?_⟩
    intro word
    refine ⟨fun wait hwait => hsound.jittered?_le_cap hwait, ?_⟩
    intro hfits
    rcases Int.lt_or_eq_of_le hsound.jitter_nonneg with hpos | hzero
    · have hstretch := hfits.resolve_left (by omega)
      rw [← hsound.longestWait?_isSome_iff hdelay] at hstretch
      obtain ⟨longest, hlongest⟩ := Option.isSome_iff_exists.mp hstretch
      obtain ⟨wait, hwait, -⟩ := hsound.exists_jittered_le hpos hlongest word
      rw [hwait, Option.isSome_some]
    · rw [hsound.jittered?_of_zero hzero.symm, hdelay, Option.isSome_some]
  · rintro terms rfl
    have hworst : terms.worstCase?.isSome ↔
        ∀ attempt < terms.backoff.retries.toNat, (terms.backoff.longestWait? attempt).isSome := by
      have hwaits := longestWaitsFrom?_isSome_iff terms.backoff 0 .zero terms.backoff.retries.toNat
      simp only [Nat.zero_add] at hwaits
      rw [← hwaits, Terms.worstCase?, longestWaits?]
      cases terms.backoff.longestWaitsFrom? 0 .zero terms.backoff.retries.toNat <;> simp
    rw [hworst]
    apply forall₂_congr
    intro attempt _
    obtain ⟨delay, hdelay, -⟩ := hsound.exists_delay attempt
    rw [hsound.longestWait?_isSome_iff hdelay]
    simp [hdelay]
  · intro hcap delay hle
    exact hsound.stretchFits_of_half (Nat.le_trans hle hcap)

theorem waits_within_cap_standard : standard.check = .ok () ∧
    ∀ attempt word, (standard.jittered? attempt word).isSome := by
  have hcheck : standard.check = .ok () := by decide +kernel
  obtain ⟨hwaits, -, hfits⟩ := waits_within_cap hcheck
  refine ⟨hcheck, ?_⟩
  intro attempt word
  obtain ⟨delay, -, hle, hword⟩ := hwaits attempt
  exact (hword word).2 (.inr (hfits (by decide) delay hle))

def endless : Backoff := ⟨1, .longest, .longest, .ofRatio false 1 2, 2⟩

theorem endless_overflows :
    (Terms.mk (.ofSeconds 10) endless .empty (.ofSeconds 1)).check = .ok () ∧
      endless.delay? 0 = some .longest ∧ endless.jittered? 0 18446744073709551615 = Option.none ∧
      (Terms.mk (.ofSeconds 10) endless .empty (.ofSeconds 1)).worstCase? = Option.none := by
  decide +kernel

end LeaseLock.Backoff
