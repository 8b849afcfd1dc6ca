import LeaseLock.Time.Calendar

namespace LeaseLock

/-- A day of an era. Only the last year of a group of four has a day more, and of the groups that end
a century only the last. -/
structure EraDay where
  century : Nat
  group : Nat
  year : Nat
  day : Nat
  century_lt : century < 4
  group_lt : group < 25
  year_lt : year < 4
  day_lt : day < 366
  last : day = 365 → year = 3 ∧ (group = 24 → century = 3)

namespace EraDay

def yearOfEra (e : EraDay) : Nat := 100 * e.century + 4 * e.group + e.year

def daysBefore (e : EraDay) : Nat := 36524 * e.century + 1461 * e.group + 365 * e.year

def month (e : EraDay) : Nat := (5 * e.day + 2) / 153

def dayOfMonth (e : EraDay) : Nat := e.day - (153 * e.month + 2) / 5

theorem exists_of_lt {n : Nat} (hn : n < 146097) : ∃ e : EraDay, n = e.daysBefore + e.day := by
  obtain ⟨c, r, hc, hr, hcr, rfl⟩ : ∃ c r, c < 4 ∧ r < 36525 ∧ (r = 36524 → c = 3) ∧
      n = 36524 * c + r := by
    -- Only the last century has a day more than the quotient allows for; so too the last year below.
    by_cases h : n = 146096
    · exact ⟨3, 36524, by omega, by omega, by omega, by omega⟩
    · exact ⟨n / 36524, n % 36524, by omega, by omega, by omega, by omega⟩
  obtain ⟨k, t, hk, ht, hkt, hs⟩ : ∃ k t, k < 4 ∧ t < 366 ∧ (t = 365 → k = 3) ∧
      r % 1461 = 365 * k + t := by
    by_cases h : r % 1461 = 1460
    · exact ⟨3, 365, by omega, by omega, by omega, by omega⟩
    · exact ⟨r % 1461 / 365, r % 1461 % 365, by omega, by omega, by omega, by omega⟩
  refine ⟨⟨c, r / 1461, k, t, hc, by omega, hk, ht, fun h => ⟨hkt h, fun hq => hcr ?_⟩⟩, ?_⟩
  · have := hkt h
    omega
  · simp only [daysBefore]
    omega

variable (e : EraDay)

theorem yearOfEra_lt : e.yearOfEra < 400 := by
  obtain ⟨c, q, k, t, hc, hq, hk, ht, hlast⟩ := e
  simp only [yearOfEra]
  omega

theorem yearOfEra_eq {n : Nat} (hn : n = e.daysBefore + e.day) :
    (n - n / 1460 + n / 36524 - n / 146096) / 365 = e.yearOfEra := by
  obtain ⟨c, q, k, t, hc, hq, hk, ht, hlast⟩ := e
  simp only [daysBefore, yearOfEra] at hn ⊢
  by_cases hend : n = 146096
  · subst hend
    omega
  · have hcentury : n / 36524 = c := by omega
    have hera : n / 146096 = 0 := by omega
    -- A group has a day more than the divisor, and what has come together may make a group more.
    by_cases hover : 24 * c + q + 365 * k + t < 1460
    · have hgroup : n / 1460 = 25 * c + q := by omega
      rw [hcentury, hera, hgroup]
      omega
    · have hgroup : n / 1460 = 25 * c + q + 1 := by omega
      rw [hcentury, hera, hgroup]
      omega

theorem daysBefore_eq :
    365 * e.yearOfEra + e.yearOfEra / 4 - e.yearOfEra / 100 = e.daysBefore := by
  obtain ⟨c, q, k, t, hc, hq, hk, ht, hlast⟩ := e
  simp only [daysBefore, yearOfEra]
  have hgroup : (100 * c + 4 * q + k) / 4 = 25 * c + q := by omega
  have hcentury : (100 * c + 4 * q + k) / 100 = c := by omega
  omega

theorem month_lt : e.month < 12 := by
  have := e.day_lt
  simp only [month]
  omega

theorem monthStart_le : (153 * e.month + 2) / 5 ≤ e.day := by
  simp only [month]
  omega

end EraDay

namespace CalendarDay

theorem ofDays_eq (days : Int) : ∃ (era : Int) (e : EraDay),
    days + 719468 = 146097 * era + (e.daysBefore + e.day : Nat) ∧
      ofDays days = ⟨era * 400 + e.yearOfEra + (if e.month < 10 then 0 else 1),
        if e.month < 10 then e.month + 3 else e.month - 9, e.dayOfMonth + 1⟩ := by
  obtain ⟨n, hn⟩ : ∃ n, ((days + 719468) % 146097).toNat = n := ⟨_, rfl⟩
  obtain ⟨e, he⟩ := EraDay.exists_of_lt (n := n) (by omega)
  refine ⟨(days + 719468) / 146097, e, by omega, ?_⟩
  have hday : n - e.daysBefore = e.day := by omega
  have hlt := e.month_lt
  have hmonth : (5 * e.day + 2) / 153 = e.month := rfl
  have hdayOfMonth : e.day - (153 * e.month + 2) / 5 = e.dayOfMonth := rfl
  simp only [ofDays, hn, e.yearOfEra_eq he, e.daysBefore_eq, hday, hmonth, hdayOfMonth]
  by_cases hm : e.month < 10
  · have hlate : ¬e.month + 3 ≤ 2 := by omega
    simp [hm, hlate]
  · have hearly : e.month - 9 ≤ 2 := by omega
    simp [hm, hearly]

theorem toDays_ofDays (days : Int) : (ofDays days).toDays = days := by
  obtain ⟨era, e, hdays, h⟩ := ofDays_eq days
  have hyear := e.yearOfEra_lt
  have hbefore := e.daysBefore_eq
  have hstart := e.monthStart_le
  have hm := e.month_lt
  rw [h]
  by_cases hlow : e.month < 10
  · have hmonth : (e.month + 3 + 9) % 12 = e.month := by omega
    have hlate : ¬e.month + 3 ≤ 2 := by omega
    simp only [toDays, hlow, if_true, hlate, if_false, hmonth, EraDay.dayOfMonth]
    omega
  · have hmonth : (e.month - 9 + 9) % 12 = e.month := by omega
    have hearly : e.month - 9 ≤ 2 := by omega
    simp only [toDays, hlow, if_false, hearly, if_true, hmonth, EraDay.dayOfMonth]
    omega

theorem le_daysInMonth (year : Int) {m : Nat} (hm : m < 11) :
    (153 * (m + 1) + 2) / 5 - (153 * m + 2) / 5 ≤
      daysInMonth year (if m < 10 then m + 3 else m - 9) := by
  have hcases : ∀ m < 11, (153 * (m + 1) + 2) / 5 - (153 * m + 2) / 5 ≤
      daysInMonth 1 (if m < 10 then m + 3 else m - 9) := by decide
  have hmonth : (if m < 10 then m + 3 else m - 9) ≠ 2 := by split <;> omega
  simpa only [daysInMonth, hmonth, if_false] using hcases m hm

theorem isLeap_of_last {e : EraDay} (h : e.day = 365) (era : Int) :
    isLeap (era * 400 + e.yearOfEra + 1) = true := by
  obtain ⟨hyear, hgroup⟩ := e.last h
  have hlt := e.group_lt
  simp only [isLeap, EraDay.yearOfEra, Bool.and_eq_true, Bool.or_eq_true, bne_iff_ne, beq_iff_eq]
  omega

theorem of?_ofDays (days : Int) :
    of? (ofDays days).year (ofDays days).month (ofDays days).day = some (ofDays days) := by
  obtain ⟨era, e, -, h⟩ := ofDays_eq days
  have hday := e.day_lt
  have hm := e.month_lt
  rw [h]
  simp only [of?]
  rw [if_pos]
  refine ⟨by split <;> omega, by split <;> omega, by omega, ?_⟩
  -- The year ends with February, the one month whose length hangs on the year.
  by_cases hfebruary : e.month = 11
  · by_cases hend : e.day = 365
    · simp [hfebruary, EraDay.dayOfMonth, hend, daysInMonth, isLeap_of_last hend era]
    · simp only [hfebruary, EraDay.dayOfMonth, daysInMonth]
      simp only [Nat.reduceLT, if_false, Nat.reduceSub, if_true]
      split <;> omega
  · have hle := le_daysInMonth (era * 400 + e.yearOfEra + (if e.month < 10 then 0 else 1))
      (m := e.month) (by omega)
    have hlt : e.day < (153 * (e.month + 1) + 2) / 5 := by
      simp only [EraDay.month]
      omega
    have hstart := e.monthStart_le
    simp only [EraDay.dayOfMonth]
    omega

theorem lt_of_of? {d : CalendarDay} (h : of? d.year d.month d.day = some d) :
    d.month < 100 ∧ d.day < 100 := by
  have hlength : daysInMonth d.year d.month ≤ 31 := by
    simp only [daysInMonth]
    split
    · split <;> omega
    · split <;> omega
  simp only [of?] at h
  split at h
  · omega
  · cases h

theorem year_ofDays {days : Int} (hfrom : -96465292 ≤ days) (hto : days ≤ 95026236) :
    -262143 ≤ (ofDays days).year ∧ (ofDays days).year ≤ 262142 := by
  obtain ⟨era, e, hdays, h⟩ := ofDays_eq days
  rw [h]
  obtain ⟨c, q, k, t, hc, hq, hk, ht, hlast⟩ := e
  simp only [EraDay.daysBefore, EraDay.yearOfEra, EraDay.month] at hdays ⊢
  have hera : -656 ≤ era ∧ era ≤ 655 := by omega
  by_cases hm : (5 * t + 2) / 153 < 10
  · have hearly : t < 306 := by omega
    simp only [hm, if_true]
    omega
  · have hlate : 306 ≤ t := by omega
    simp only [hm, if_false]
    omega

end CalendarDay

end LeaseLock
