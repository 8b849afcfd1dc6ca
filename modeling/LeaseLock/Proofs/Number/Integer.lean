import LeaseLock.Number.Integer

namespace LeaseLock

variable {greatest n m : Nat} {beyond : IntegerError} {cs : List Char} {i : Int}

theorem readDigits_le (h : readDigits greatest beyond n cs = .ok m) (hn : n ≤ greatest) :
    m ≤ greatest := by
  induction cs generalizing n with
  | nil =>
    cases h
    exact hn
  | cons c rest ih =>
    rw [readDigits] at h
    split at h
    · cases h
    · split at h
      · cases h
      · exact ih h (Nat.le_of_not_lt ‹_›)

theorem readMagnitude_le (h : readMagnitude greatest beyond cs = .ok m) : m ≤ greatest := by
  rw [readMagnitude] at h
  split at h
  · cases h
  · exact readDigits_le h (Nat.zero_le _)

theorem le_of_map_readMagnitude (h : (readMagnitude greatest beyond cs).map Int.ofNat = .ok i) :
    0 ≤ i ∧ i ≤ greatest := by
  cases hread : readMagnitude greatest beyond cs with
  | error _ =>
    rw [hread] at h
    cases h
  | ok m =>
    have hm := readMagnitude_le hread
    rw [hread] at h
    cases h
    exact ⟨Int.natCast_nonneg m, Int.ofNat_le.mpr hm⟩

theorem readInt_mem {text : String} (h : readInt greatest text = .ok i) :
    -(greatest : Int) - 1 ≤ i ∧ i ≤ greatest := by
  rw [readInt] at h
  split at h
  · cases h
  · have hrange := le_of_map_readMagnitude h
    omega
  · rename_i rest _
    cases hread : readMagnitude (greatest + 1) .tooSmall rest with
    | error _ =>
      rw [hread] at h
      cases h
    | ok m =>
      have hm := readMagnitude_le hread
      rw [hread] at h
      obtain rfl : -(m : Int) = i := Except.ok.inj h
      omega
  · have hrange := le_of_map_readMagnitude h
    omega

end LeaseLock
