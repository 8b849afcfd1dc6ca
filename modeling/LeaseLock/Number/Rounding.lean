namespace LeaseLock

def roundDiv (n d : Nat) : Nat :=
  let q := n / d
  let twice := 2 * (n % d)
  if twice < d then q
  else if d < twice then q + 1
  else q + q % 2

def roundDivUp (n d : Nat) : Nat :=
  (2 * n + d) / (2 * d)

def ceilDiv (n d : Nat) : Nat :=
  (n + (d - 1)) / d

theorem roundDiv_le (n d : Nat) : roundDiv n d ≤ n / d + 1 := by
  simp only [roundDiv]
  split
  · omega
  · split <;> omega

theorem div_le_roundDiv (n d : Nat) : n / d ≤ roundDiv n d := by
  simp only [roundDiv]
  split
  · omega
  · split <;> omega

theorem roundDiv_mul_le (n d : Nat) (hd : 0 < d) : 2 * (roundDiv n d * d) ≤ 2 * n + d := by
  have hdiv := Nat.div_add_mod n d
  have hlt := Nat.mod_lt n hd
  simp only [roundDiv]
  generalize n / d = q at *
  generalize n % d = r at *
  have hq : (q + 1) * d = d * q + d := by rw [Nat.add_mul, Nat.mul_comm, Nat.one_mul]
  have hq' : q * d = d * q := Nat.mul_comm _ _
  split
  · omega
  · split
    · omega
    · rcases Nat.mod_two_eq_zero_or_one q with h | h
      · rw [h, Nat.add_zero]; omega
      · rw [h]; omega

theorem le_roundDiv_mul (n d : Nat) (hd : 0 < d) : 2 * n ≤ 2 * (roundDiv n d * d) + d := by
  have hdiv := Nat.div_add_mod n d
  have hlt := Nat.mod_lt n hd
  simp only [roundDiv]
  generalize n / d = q at *
  generalize n % d = r at *
  have hq : (q + 1) * d = d * q + d := by rw [Nat.add_mul, Nat.mul_comm, Nat.one_mul]
  have hq' : q * d = d * q := Nat.mul_comm _ _
  split
  · omega
  · split
    · omega
    · rcases Nat.mod_two_eq_zero_or_one q with h | h
      · rw [h, Nat.add_zero]; omega
      · rw [h]; omega

theorem roundDiv_mul_self (q d : Nat) (hd : 0 < d) : roundDiv (q * d) d = q := by
  simp [roundDiv, Nat.mul_div_cancel _ hd, hd]

end LeaseLock
