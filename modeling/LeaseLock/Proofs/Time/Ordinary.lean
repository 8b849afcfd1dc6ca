import LeaseLock.Time.Instant

namespace LeaseLock.Instant

def nanos (t : Instant) : Int := t.seconds * nanosPerSecond + t.fraction

def IsOrdinary (t : Instant) : Prop := t.fraction < nanosPerSecond

variable {s t : Instant} {n : Int}

theorem isLeap_eq_false_iff : t.isLeap = false ↔ t.IsOrdinary := by
  simp only [isLeap, IsOrdinary, decide_eq_false_iff_not, Nat.not_le]

theorem nanos_earliest : earliest.nanos = -8334601228800000000000 := rfl

theorem nanos_latest : latest.nanos = 8210266876799999999999 := rfl

theorem parts_of_ofParts? {seconds : Int} {fraction : Nat}
    (h : ofParts? seconds fraction = some t) : t.seconds = seconds ∧ t.fraction = fraction := by
  simp only [ofParts?, Option.dite_none_right_eq_some, Option.some.injEq] at h
  obtain ⟨_, _, rfl⟩ := h
  exact ⟨rfl, rfl⟩

theorem ordinary_of_ofNanos? (h : ofNanos? n = some t) : t.IsOrdinary := by
  obtain ⟨-, hfraction⟩ := parts_of_ofParts? h
  simp only [IsOrdinary, hfraction, nanosPerSecond]
  omega

theorem nanos_of_ofNanos? (h : ofNanos? n = some t) : t.nanos = n := by
  obtain ⟨hseconds, hfraction⟩ := parts_of_ofParts? h
  simp only [nanos, hseconds, hfraction, nanosPerSecond]
  omega

theorem eq_of_nanos_eq (hs : s.IsOrdinary) (ht : t.IsOrdinary) (h : s.nanos = t.nanos) : s = t := by
  simp only [IsOrdinary, nanos, nanosPerSecond] at hs ht h
  exact eq_of_parts (by omega) (by omega)

theorem ofNanos?_isSome_iff : (ofNanos? n).isSome ↔ earliest.nanos ≤ n ∧ n ≤ latest.nanos := by
  constructor
  · intro h
    obtain ⟨t, ht⟩ := Option.isSome_iff_exists.mp h
    have hr := t.inRange
    have hf := ordinary_of_ofNanos? ht
    have he := nanos_of_ofNanos? ht
    simp only [IsOrdinary, nanos, earliest, latest, nanosPerSecond] at hf he ⊢
    omega
  · intro h
    simp only [nanos, earliest, latest, nanosPerSecond] at h
    have hs : -8334601228800 ≤ n / nanosPerSecond ∧ n / nanosPerSecond ≤ 8210266876799 := by
      simp only [nanosPerSecond]
      omega
    have hf : (n % nanosPerSecond).toNat < 2 * nanosPerSecond := by
      simp only [nanosPerSecond]
      omega
    simp only [ofNanos?, ofParts?, dif_pos hs, dif_pos hf, Option.isSome_some]

theorem earliest_le_nanos (t : Instant) : earliest.nanos ≤ t.nanos := by
  have hr := t.inRange
  simp only [nanos, earliest, nanosPerSecond]
  omega

theorem IsOrdinary.nanos_le_latest (h : t.IsOrdinary) : t.nanos ≤ latest.nanos := by
  have hr := t.inRange
  simp only [IsOrdinary, nanosPerSecond] at h
  simp only [nanos, latest, nanosPerSecond]
  omega

theorem ofNanos?_nanos (h : t.IsOrdinary) : ofNanos? t.nanos = some t := by
  obtain ⟨s, hs⟩ := Option.isSome_iff_exists.mp
    (ofNanos?_isSome_iff.mpr ⟨t.earliest_le_nanos, h.nanos_le_latest⟩)
  rw [hs, eq_of_nanos_eq (ordinary_of_ofNanos? hs) h (nanos_of_ofNanos? hs)]

theorem shift?_eq_ofNanos? (h : t.IsOrdinary) (d : Int) : t.shift? d = ofNanos? (t.nanos + d) := by
  have hd := Int.mul_tdiv_add_tmod d nanosPerSecond
  simp only [shift?, isLeap_eq_false_iff.mpr h, Bool.false_eq_true, if_false]
  congr 1
  simp only [nanos, nanosPerSecond] at hd ⊢
  omega

theorem lt_iff_nanos_lt (hs : s.IsOrdinary) (ht : t.IsOrdinary) : s < t ↔ s.nanos < t.nanos := by
  simp only [IsOrdinary, nanosPerSecond] at hs ht
  change s.isBefore t = true ↔ _
  simp only [isBefore, nanos, nanosPerSecond, Bool.or_eq_true, Bool.and_eq_true, decide_eq_true_eq,
    beq_iff_eq]
  omega

theorem le_iff_nanos_le (hs : s.IsOrdinary) (ht : t.IsOrdinary) : s ≤ t ↔ s.nanos ≤ t.nanos := by
  have h := lt_iff_nanos_lt ht hs
  change (!t.isBefore s) = true ↔ _
  change t.isBefore s = true ↔ _ at h
  cases hb : t.isBefore s with
  | true =>
    have hlt := h.mp hb
    simp only [Bool.not_true, Bool.false_eq_true, false_iff]
    omega
  | false =>
    have hle : ¬t.nanos < s.nanos := fun hlt => by simp [h.mpr hlt] at hb
    simp only [Bool.not_false, true_iff]
    omega

theorem max_ordinary (hs : s.IsOrdinary) (ht : t.IsOrdinary) : (max s t).IsOrdinary := by
  change (if s ≤ t then t else s).IsOrdinary
  split
  · exact ht
  · exact hs

theorem nanos_max (hs : s.IsOrdinary) (ht : t.IsOrdinary) :
    (max s t).nanos = max s.nanos t.nanos := by
  have h := le_iff_nanos_le hs ht
  change (if s ≤ t then t else s).nanos = _
  by_cases hle : s ≤ t
  · rw [if_pos hle, Int.max_eq_right (h.mp hle)]
  · rw [if_neg hle, Int.max_eq_left (Int.le_of_lt (Int.not_le.mp (mt h.mpr hle)))]

theorem nanosSince_eq (hs : s.IsOrdinary) (ht : t.IsOrdinary) :
    t.nanosSince s = t.nanos - s.nanos := by
  simp only [nanosSince, leapBetween, isLeap_eq_false_iff.mpr hs, isLeap_eq_false_iff.mpr ht,
    Bool.false_eq_true, and_false, if_false, nanos, nanosPerSecond]
  omega

theorem nanos_since (hs : s.IsOrdinary) (ht : t.IsOrdinary) :
    (t.since s).nanos = (t.nanos - s.nanos).toNat := by
  simp only [since, nanosSince_eq hs ht]

theorem ofMillis?_eq_some {ms : Int} (h : ofMillis? ms = some t) :
    t.IsOrdinary ∧ t.nanos = ms * nanosPerMilli :=
  ⟨ordinary_of_ofNanos? h, nanos_of_ofNanos? h⟩

end LeaseLock.Instant
