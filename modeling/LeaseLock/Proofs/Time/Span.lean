import LeaseLock.Time.Span

namespace LeaseLock.Span

variable {s : Span} {n : Nat}

theorem seconds_lt (s : Span) : s.seconds < UInt64.size := by
  have h := s.inRange
  rw [seconds]
  exact Nat.div_lt_of_lt_mul (by rwa [Nat.mul_comm])

theorem fraction_lt (s : Span) : s.fraction < nanosPerSecond := Nat.mod_lt _ (by decide)

theorem seconds_mul_add_fraction (s : Span) : s.seconds * nanosPerSecond + s.fraction = s.nanos := by
  simp only [seconds, fraction, nanosPerSecond]
  omega

theorem ofNanos?_eq_some_iff : ofNanos? n = some s ↔ s.nanos = n := by
  constructor
  · intro h
    simp only [ofNanos?, Option.dite_none_right_eq_some, Option.some.injEq] at h
    obtain ⟨_, rfl⟩ := h
    rfl
  · rintro rfl
    rw [ofNanos?, dif_pos s.inRange]

theorem ofNanos?_isSome (h : n < UInt64.size * nanosPerSecond) : (ofNanos? n).isSome := by
  rw [ofNanos?, dif_pos h, Option.isSome_some]

theorem nanos_of_add? {t sum : Span} (h : s.add? t = some sum) : sum.nanos = s.nanos + t.nanos :=
  ofNanos?_eq_some_iff.mp h

theorem add?_of_lt {t : Span} (h : s.nanos + t.nanos < UInt64.size * nanosPerSecond) :
    s.add? t = some ⟨s.nanos + t.nanos, h⟩ := by
  rw [add?, ofNanos?, dif_pos h]

theorem nanos_min (s t : Span) : (min s t).nanos = min s.nanos t.nanos := by
  change (if s.nanos ≤ t.nanos then s else t).nanos = _
  split
  · exact (Nat.min_eq_left ‹_›).symm
  · exact (Nat.min_eq_right (Nat.le_of_not_le ‹_›)).symm

theorem nanos_le_longest (s : Span) : s.nanos ≤ longest.nanos := Nat.le_sub_one_of_lt s.inRange

theorem nanos_clamp (n : Nat) : (clamp n).nanos = min n longest.nanos := by
  rcases Nat.lt_or_ge n (UInt64.size * nanosPerSecond) with hlt | hge
  · have hle : n ≤ longest.nanos := Nat.le_sub_one_of_lt hlt
    rw [clamp, ofNanos?, dif_pos hlt, Option.getD_some, Nat.min_eq_left hle]
  · have hle : longest.nanos ≤ n := Nat.le_trans (Nat.sub_le _ 1) hge
    rw [clamp, ofNanos?, dif_neg (Nat.not_lt.mpr hge), Option.getD_none, Nat.min_eq_right hle]

end LeaseLock.Span
