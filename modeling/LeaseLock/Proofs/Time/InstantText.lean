import LeaseLock.Proofs.Number.Digits
import LeaseLock.Proofs.Time.Calendar
import LeaseLock.Proofs.Time.Ordinary
import LeaseLock.Time.InstantText

namespace LeaseLock.Instant

variable {c : Char} {ds rest : List Char} {n w : Nat} {t : Instant}

theorem skipBlanks_cons (hfrom : 0x20 < c.toNat) (hto : c.toNat < 0x7f) :
    skipBlanks (c :: rest) = c :: rest := by
  have h : Unicode.isBlank c = false := by
    simp [Unicode.isBlank, Unicode.inRanges, Unicode.blankRanges]
    omega
  simp [skipBlanks, h]

theorem skipBlanks_nil : skipBlanks [] = [] := rfl

theorem skipBlanks_run (hd : ∀ c ∈ ds, isDigit c = true) (hne : ds ≠ []) :
    skipBlanks (ds ++ rest) = ds ++ rest := by
  cases ds with
  | nil => exact absurd rfl hne
  | cons c ds =>
    have hc := toNat_of_isDigit (hd c (by simp))
    exact skipBlanks_cons (by omega) (by omega)

theorem readNumber_run (hd : ∀ c ∈ ds, isDigit c = true) (hne : ds ≠ []) (hw : ds.length ≤ w)
    (hend : ds.length = w ∨ Stops isDigit rest) :
    readNumber w (ds ++ rest) = some (ofDigits ds, rest) := by
  have hstops : Stops isDigit (rest.take (w - ds.length)) := by
    rcases hend with h | h
    · simp [h]
    · cases rest with
      | nil => simp
      | cons c rest => cases hk : w - ds.length <;> simp_all
  have hrun : ((ds ++ rest).take w).takeWhile isDigit = ds := by
    rw [List.take_append, List.take_of_length_le hw, takeWhile_run hd hstops]
  simp [readNumber, hrun, hne]

theorem readNumber_padded (hw : 0 < w) (hn : n < 10 ^ w) :
    readNumber w (skipBlanks ((zeroPadded w (decimalText n)).toList ++ rest)) = some (n, rest) := by
  have hlen := length_padded hw hn
  rw [skipBlanks_run isDigit_padded padded_ne_nil,
    readNumber_run isDigit_padded padded_ne_nil (Nat.le_of_eq hlen) (.inl hlen), ofDigits_padded]

theorem readNumber_twoDigits (hn : n < 100) :
    readNumber 2 (skipBlanks ((twoDigits n).toList ++ rest)) = some (n, rest) :=
  readNumber_padded (by omega) hn

theorem readNumber_signed (hend : Stops isDigit rest) :
    readNumber ((zeroPadded 4 (decimalText n)).toList ++ rest).length
      ((zeroPadded 4 (decimalText n)).toList ++ rest) = some (n, rest) := by
  rw [readNumber_run isDigit_padded padded_ne_nil (by simp) (.inr hend), ofDigits_padded]

theorem readYear_plain (hn : n < 10000) :
    readYear (skipBlanks ((zeroPadded 4 (decimalText n)).toList ++ rest)) =
      some ((n : Int), rest) := by
  have hread : readNumber 4 (skipBlanks ((zeroPadded 4 (decimalText n)).toList ++ rest)) =
      some (n, rest) := readNumber_padded (by omega) hn
  have hdigit := isDigit_padded (w := 4) (n := n)
  rw [skipBlanks_run hdigit padded_ne_nil] at hread ⊢
  cases hds : (zeroPadded 4 (decimalText n)).toList with
  | nil => exact absurd hds padded_ne_nil
  | cons c ds =>
    rw [hds] at hread hdigit
    unfold readYear
    split
    · exact absurd (hdigit '-' (by simp_all)) (by decide)
    · exact absurd (hdigit '+' (by simp_all)) (by decide)
    · rw [hread]
      rfl

theorem readYear_yearText (year : Int) (hend : Stops isDigit rest) :
    readYear (skipBlanks ((yearText year).toList ++ rest)) = some (year, rest) := by
  by_cases hneg : year < 0
  · have hvalue : -(year.natAbs : Int) = year := by omega
    simp only [yearText, hneg, if_true, String.toList_append, List.append_assoc]
    rw [show "-".toList = ['-'] from rfl, List.singleton_append,
      skipBlanks_cons (by decide) (by decide)]
    simp only [readYear, readNumber_signed hend, Option.map_some, hvalue]
  · have hvalue : (year.natAbs : Int) = year := by omega
    by_cases hlate : 9999 < year
    · simp only [yearText, hneg, if_false, hlate, if_true, String.toList_append, List.append_assoc]
      rw [show "+".toList = ['+'] from rfl, List.singleton_append,
        skipBlanks_cons (by decide) (by decide)]
      simp only [readYear, readNumber_signed hend, Option.map_some, hvalue]
    · simp only [yearText, hneg, hlate, if_false]
      rw [readYear_plain (by omega), hvalue]

theorem readMark_cons (mark : Char) (hfrom : 0x20 < mark.toNat) (hto : mark.toNat < 0x7f) :
    readMark mark (skipBlanks (mark :: rest)) = some ((), rest) := by
  simp [skipBlanks_cons hfrom hto, readMark]

theorem readDate_dateText {days : Int} (hfrom : -96465292 ≤ days) (hto : days ≤ 95026236) :
    readDate ((dateText (CalendarDay.ofDays days)).toList ++ 'T' :: rest) =
      some (CalendarDay.ofDays days, 'T' :: rest) := by
  have hyear := CalendarDay.year_ofDays hfrom hto
  have hday := CalendarDay.of?_ofDays days
  generalize CalendarDay.ofDays days = d at hyear hday ⊢
  obtain ⟨hm, hd⟩ := CalendarDay.lt_of_of? hday
  simp only [dateText, String.toList_append, List.append_assoc, show "-".toList = ['-'] from rfl,
    List.singleton_append]
  simp [readDate, readYear_yearText, isDigit, digit?, readMark_cons '-' (by decide) (by decide),
    readNumber_twoDigits hm, readNumber_twoDigits hd, hday, hyear]

theorem readFraction_run (hd : ∀ c ∈ ds, isDigit c = true) (hne : ds ≠ []) (hw : ds.length ≤ 9) :
    readFraction ('.' :: (ds ++ 'Z' :: rest)) =
      some (ofDigits ds * 10 ^ (9 - ds.length), 'Z' :: rest) := by
  have hrun : (ds ++ 'Z' :: rest).takeWhile isDigit = ds :=
    takeWhile_run hd (by simp [isDigit, digit?])
  simp [readFraction, hrun, hne, List.take_of_length_le hw]

theorem readFraction_padded (hw : 0 < w) (hw9 : w ≤ 9) (hn : n < 10 ^ w) :
    readFraction (("." ++ zeroPadded w (decimalText n)).toList ++ 'Z' :: rest) =
      some (n * 10 ^ (9 - w), 'Z' :: rest) := by
  have hlen := length_padded hw hn
  rw [String.toList_append, show ".".toList = ['.'] from rfl, List.singleton_append, List.cons_append,
    readFraction_run isDigit_padded padded_ne_nil (by omega), ofDigits_padded, hlen]

theorem readFraction_subsecondText (hn : n < nanosPerSecond) :
    readFraction ((subsecondText n).toList ++ 'Z' :: rest) = some (n, 'Z' :: rest) := by
  simp only [nanosPerSecond] at hn
  unfold subsecondText
  split
  · next h => simp [readFraction, h]
  · split
    · have hvalue : n / 1000000 * 10 ^ (9 - 3) = n := by omega
      rw [readFraction_padded (by omega) (by omega) (by omega), hvalue]
    · split
      · have hvalue : n / 1000 * 10 ^ (9 - 6) = n := by omega
        rw [readFraction_padded (by omega) (by omega) (by omega), hvalue]
      · rw [readFraction_padded (by omega) (by omega) (by omega), Nat.sub_self, Nat.pow_zero,
          Nat.mul_one]

theorem readTime_timeText (ht : t.IsOrdinary) :
    readTime (t.timeText.toList ++ 'Z' :: rest) =
      some ((t.secondOfDay.toNat, t.fraction), 'Z' :: rest) := by
  have hday : t.secondOfDay.toNat < 86400 := by
    simp only [secondOfDay, secondsPerDay]
    omega
  have hwhole : t.fraction / nanosPerSecond = 0 := Nat.div_eq_of_lt ht
  have hpart : t.fraction % nanosPerSecond = t.fraction := Nat.mod_eq_of_lt ht
  generalize hs : t.secondOfDay.toNat = s at hday
  have hhour : s / 3600 < 100 := by omega
  have hminute : s / 60 % 60 < 100 := by omega
  have hsecond : s % 60 < 100 := by omega
  have hlast : s % 60 ≠ 60 := by omega
  have hsum : (s / 3600 * 60 + s / 60 % 60) * 60 + s % 60 = s := by omega
  simp only [timeText, hs, hwhole, hpart, Nat.add_zero, String.toList_append, List.append_assoc,
    show ":".toList = [':'] from rfl, List.singleton_append]
  simp [readTime, readNumber_twoDigits hhour, readNumber_twoDigits hminute,
    readNumber_twoDigits hsecond, readMark_cons ':' (by decide) (by decide),
    readFraction_subsecondText ht]
  refine ⟨by omega, ?_⟩
  rw [if_neg hlast, hsum]

theorem readOffset_utc : readOffset (skipBlanks ['Z']) = some (0, []) := by
  rw [skipBlanks_cons (by decide) (by decide)]
  rfl

theorem ofText?_text (ht : t.IsOrdinary) : ofText? t.text = some t := by
  have hrange := t.inRange
  have hparts : ofParts? t.seconds t.fraction = some t := by
    rw [ofParts?, dif_pos hrange, dif_pos t.inSecond]
  have hseconds : (CalendarDay.ofDays (t.seconds / secondsPerDay)).toDays * secondsPerDay +
      max t.secondOfDay 0 = t.seconds := by
    simp only [CalendarDay.toDays_ofDays, secondOfDay, secondsPerDay]
    omega
  have hdays : -96465292 ≤ t.seconds / secondsPerDay ∧ t.seconds / secondsPerDay ≤ 95026236 := by
    simp only [secondsPerDay]
    omega
  have htext : t.text.toList =
      (dateText (CalendarDay.ofDays (t.seconds / secondsPerDay))).toList ++
        'T' :: (t.timeText.toList ++ ['Z']) := by
    simp [text, day]
  simp only [ofText?, htext, readDate_dateText hdays.1 hdays.2]
  simp [readJoin, readTime_timeText ht, readOffset_utc, skipBlanks_nil, hseconds, hparts]

end LeaseLock.Instant
