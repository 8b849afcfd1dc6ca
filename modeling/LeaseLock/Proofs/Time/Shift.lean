import LeaseLock.Proofs.Time.Ordinary
import LeaseLock.Proofs.Time.Span
import LeaseLock.Lock.Lease

namespace LeaseLock.Instant

variable {s t u v : Instant} {span : Span}

theorem ofParts?_isSome_of_lt (t : Instant) {fraction : Nat} (h : fraction < 2 * nanosPerSecond) :
    (ofParts? t.seconds fraction).isSome := by
  rw [ofParts?, dif_pos t.inRange, dif_pos h, Option.isSome_some]

theorem nanosPerSecond_le_of_leap (h : t.isLeap = true) : nanosPerSecond ≤ t.fraction := by
  simpa only [isLeap, decide_eq_true_eq] using h

theorem tdiv_nanos (span : Span) : (span.nanos : Int).tdiv nanosPerSecond = span.seconds :=
  (Int.ofNat_tdiv _ _).symm

theorem tmod_nanos (span : Span) : (span.nanos : Int).tmod nanosPerSecond = span.fraction :=
  (Int.ofNat_tmod _ _).symm

theorem add?_of_leap (h : t.isLeap = true) (span : Span) :
    t.add? span =
      if 0 < span.seconds ∨ 2 * nanosPerSecond ≤ t.fraction + span.fraction then
        ofNanos? (t.nanos + span.nanos - nanosPerSecond)
      else ofParts? t.seconds (t.fraction + span.fraction) := by
  have hparts := span.seconds_mul_add_fraction
  simp only [add?, shift?, h, if_true, tdiv_nanos, tmod_nanos]
  by_cases hleft : 0 < span.seconds ∨ 2 * nanosPerSecond ≤ t.fraction + span.fraction
  · rw [if_pos hleft, if_pos (by omega)]
    congr 1
    simp only [nanos, nanosPerSecond] at hparts ⊢
    omega
  · rw [if_neg hleft, if_neg (by omega), if_neg (by omega)]
    congr 1

theorem sub?_of_leap (h : t.isLeap = true) (span : Span) :
    t.sub? span =
      if span.seconds = 0 then ofParts? t.seconds (t.fraction - span.fraction)
      else ofNanos? (t.nanos - span.nanos) := by
  have hparts := span.seconds_mul_add_fraction
  have hfraction := span.fraction_lt
  have hin := t.inSecond
  have hleap := nanosPerSecond_le_of_leap h
  simp only [sub?, shift?, h, if_true, Int.neg_tdiv, Int.neg_tmod, tdiv_nanos, tmod_nanos]
  rw [if_neg (by omega)]
  by_cases hzero : span.seconds = 0
  · rw [if_pos hzero, if_neg (by omega)]
    congr 1
    omega
  · rw [if_neg hzero, if_pos (by omega)]
    congr 1
    simp only [nanos, nanosPerSecond] at hparts ⊢
    omega

theorem le_iff :
    t ≤ u ↔ t.seconds < u.seconds ∨ (t.seconds = u.seconds ∧ t.fraction ≤ u.fraction) := by
  change (!u.isBefore t) = true ↔ _
  simp only [isBefore, Bool.not_eq_true', Bool.or_eq_false_iff, Bool.and_eq_false_iff,
    decide_eq_false_iff_not, beq_eq_false_iff_ne]
  omega

theorem le_refl (t : Instant) : t ≤ t := le_iff.mpr (.inr ⟨rfl, Nat.le_refl _⟩)

theorem le_max_left (s t : Instant) : s ≤ max s t := by
  change s ≤ if s ≤ t then t else s
  split
  · assumption
  · exact le_refl s

theorem IsOrdinary.nanos_le_of_le (h : t.IsOrdinary) (hle : t ≤ u) : t.nanos ≤ u.nanos := by
  rw [le_iff] at hle
  simp only [IsOrdinary, nanosPerSecond] at h
  simp only [nanos, nanosPerSecond]
  omega

/-- The order is not that of the nanoseconds where the shift ends inside a leap second; it is less
than a second long there. -/
theorem earliest_add_le (h : t.add? span = some u) (hle : u ≤ v) :
    earliest.nanos + span.nanos ≤ v.nanos := by
  have hearliest := t.earliest_le_nanos
  cases hleap : t.isLeap with
  | false =>
    rw [add?, shift?_eq_ofNanos? (isLeap_eq_false_iff.mp hleap)] at h
    have hv := (ordinary_of_ofNanos? h).nanos_le_of_le hle
    rw [nanos_of_ofNanos? h] at hv
    omega
  | true =>
    have hfraction := nanosPerSecond_le_of_leap hleap
    have hrange := t.inRange
    rw [add?_of_leap hleap] at h
    split at h
    case isTrue =>
      have hv := (ordinary_of_ofNanos? h).nanos_le_of_le hle
      rw [nanos_of_ofNanos? h] at hv
      simp only [nanos, earliest, nanosPerSecond] at *
      omega
    case isFalse hstays =>
      obtain ⟨hseconds, hu⟩ := parts_of_ofParts? h
      have hparts := span.seconds_mul_add_fraction
      rw [le_iff] at hle
      simp only [nanos, earliest, nanosPerSecond] at *
      omega

theorem sub?_isSome_of_earliest_add_le (h : earliest.nanos + span.nanos ≤ t.nanos) :
    (t.sub? span).isSome := by
  cases hleap : t.isLeap with
  | false =>
    have ht := isLeap_eq_false_iff.mp hleap
    have hlatest := ht.nanos_le_latest
    rw [sub?, shift?_eq_ofNanos? ht, ofNanos?_isSome_iff]
    omega
  | true =>
    have hin := t.inSecond
    have hrange := t.inRange
    rw [sub?_of_leap hleap]
    split
    case isTrue => exact t.ofParts?_isSome_of_lt (by omega)
    case isFalse hleft =>
      have hparts := span.seconds_mul_add_fraction
      rw [ofNanos?_isSome_iff]
      simp only [nanos, earliest, latest, nanosPerSecond] at *
      omega

theorem nanos_le (t : Instant) : t.nanos ≤ latest.nanos + nanosPerSecond := by
  have hrange := t.inRange
  have hin := t.inSecond
  simp only [nanos, latest, nanosPerSecond] at *
  omega

theorem natAbs_nanosSince_le (t s : Instant) :
    (t.nanosSince s).natAbs ≤ Lease.maxShiftMillis * nanosPerMilli := by
  have hs := s.inRange
  have ht := t.inRange
  have hfs := s.inSecond
  have hft := t.inSecond
  have hleap := leapBetween_bounds t s
  simp only [nanosSince, nanosPerSecond, Lease.maxShiftMillis, UInt64.size, nanosPerMilli] at *
  omega

end LeaseLock.Instant
