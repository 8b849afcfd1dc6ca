import LeaseLock.Number.Digits
import Mathlib.Algebra.Group.Nat.Defs

namespace LeaseLock

variable {p : Char → Bool} {c : Char} {ds rest : List Char} {n w : Nat}

def Stops (p : Char → Bool) (rest : List Char) : Prop := ∀ c ∈ rest.head?, p c = false

@[simp] theorem stops_nil : Stops p [] := by simp [Stops]

@[simp] theorem stops_cons : Stops p (c :: rest) ↔ p c = false := by simp [Stops]

theorem takeWhile_run (hd : ∀ c ∈ ds, p c = true) (hr : Stops p rest) :
    (ds ++ rest).takeWhile p = ds := by
  rw [List.takeWhile_append_of_pos hd]
  cases rest with
  | nil => simp
  | cons c rest => simp [stops_cons.mp hr]

theorem dropWhile_run (hd : ∀ c ∈ ds, p c = true) (hr : Stops p rest) :
    (ds ++ rest).dropWhile p = rest := by
  rw [List.dropWhile_append_of_pos hd]
  cases rest with
  | nil => rfl
  | cons c rest => simp [stops_cons.mp hr]

theorem isDigit_iff : isDigit c = true ↔ '0' ≤ c ∧ c ≤ '9' := by
  simp [isDigit, digit?]

theorem toNat_of_isDigit (h : isDigit c = true) : 48 ≤ c.toNat ∧ c.toNat ≤ 57 := by
  obtain ⟨h1, h2⟩ := isDigit_iff.mp h
  exact ⟨UInt32.le_iff_toNat_le.mp (Char.le_def.mp h1), UInt32.le_iff_toNat_le.mp (Char.le_def.mp h2)⟩

theorem digit?_of_isDigit (h : isDigit c = true) : digit? c = some (c.toNat - '0'.toNat) := by
  simp [digit?, isDigit_iff.mp h]

theorem ofDigits_eq (hd : ∀ c ∈ ds, isDigit c = true) : ofDigits ds = Nat.ofDigitChars 10 ds 0 := by
  suffices h : ∀ n, ds.foldl (fun n c => 10 * n + (digit? c).getD 0) n = Nat.ofDigitChars 10 ds n from
    h 0
  induction ds with
  | nil => intro n; rfl
  | cons c ds ih =>
    intro n
    have hc := digit?_of_isDigit (hd c (by simp))
    rw [List.foldl_cons, hc, ih (fun c h => hd c (by simp [h]))]
    rfl

theorem isDigit_toDigits : ∀ c ∈ Nat.toDigits 10 n, isDigit c = true := by
  intro c hc
  have h := Nat.isDigit_of_mem_toDigits (by omega) (by omega) hc
  simp only [Char.isDigit, Bool.and_eq_true, decide_eq_true_eq] at h
  exact isDigit_iff.mpr h

theorem ofDigits_toDigits (n : Nat) : ofDigits (Nat.toDigits 10 n) = n := by
  rw [ofDigits_eq isDigit_toDigits, Nat.ofDigitChars_ten_toDigits]

theorem toDigits_cases (n : Nat) :
    n = 0 ∨ ∃ c ds, Nat.toDigits 10 n = c :: ds ∧ c ≠ '0' := by
  induction n using Nat.strongRecOn with
  | _ n ih =>
    by_cases hn : n < 10
    · have hc : ∀ m < 10, m = 0 ∨ Nat.digitChar m ≠ '0' := by decide
      rw [Nat.toDigits_of_lt_base hn]
      rcases hc n hn with h | h
      · exact .inl h
      · exact .inr ⟨_, [], rfl, h⟩
    · rw [Nat.toDigits_of_base_le (by omega) (by omega)]
      rcases ih (n / 10) (by omega) with h | ⟨c, ds, h, hc⟩
      · omega
      · exact .inr ⟨c, ds ++ [(n % 10).digitChar], by rw [h, List.cons_append], hc⟩

theorem padded_eq (w n : Nat) : (zeroPadded w (decimalText n)).toList =
    List.replicate (w - (Nat.toDigits 10 n).length) '0' ++ Nat.toDigits 10 n := by
  simp [zeroPadded, decimalText]

theorem isDigit_padded : ∀ c ∈ (zeroPadded w (decimalText n)).toList, isDigit c = true := by
  intro c hc
  rw [padded_eq, List.mem_append] at hc
  rcases hc with hc | hc
  · rw [List.eq_of_mem_replicate hc]
    rfl
  · exact isDigit_toDigits c hc

theorem ofDigits_padded (w n : Nat) : ofDigits (zeroPadded w (decimalText n)).toList = n := by
  rw [ofDigits_eq isDigit_padded, padded_eq, Nat.ofDigitChars_append,
    Nat.ofDigitChars_replicate_zero, Nat.mul_zero, Nat.ofDigitChars_ten_toDigits]

theorem length_padded (hw : 0 < w) (hn : n < 10 ^ w) :
    (zeroPadded w (decimalText n)).toList.length = w := by
  have h := (Nat.length_toDigits_le_iff (b := 10) (by omega) hw).mpr hn
  rw [padded_eq, List.length_append, List.length_replicate]
  omega

theorem padded_ne_nil : (zeroPadded w (decimalText n)).toList ≠ [] := by
  rw [padded_eq]
  simp [Nat.toDigits_ne_nil]

end LeaseLock
