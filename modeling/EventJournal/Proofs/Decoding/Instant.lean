import EventJournal.Instant

/-!
# Reading a point in time that was written

Every part of a written point in time has its digits in full, so reading one part stops
where the next begins: a part of fixed width because no more digits are wanted, a signed
year and a fraction because a character follows that is no digit. Blanks are skipped
before a part, and neither a digit nor one of the marks between the parts is blank.
-/

namespace EventJournal.Instant

/-! ## Written numbers -/

theorem ofDigits_eq (digits : List Char) : ofDigits digits = Nat.ofDigitChars 10 digits 0 := by
  simp only [ofDigits, Nat.ofDigitChars, Nat.mul_comm]

theorem isDigit_of_mem_padded {width n : Nat} {c : Char} (h : c ∈ padded width n) :
    c.isDigit = true := by
  simp only [padded, List.mem_append, List.mem_replicate] at h
  cases h with
  | inl hZero => simp [hZero.2]
  | inr hDigit => exact Nat.isDigit_of_mem_toDigits (by decide) (by decide) hDigit

theorem ofDigits_padded (width n : Nat) : ofDigits (padded width n) = n := by
  have hZeros (count : Nat) : Nat.ofDigitChars 10 (List.replicate count '0') 0 = 0 := by
    induction count with
    | zero => rfl
    | succ count ih => simpa [List.replicate_succ, Nat.ofDigitChars] using ih
  rw [ofDigits_eq, padded, Nat.ofDigitChars_append, hZeros]
  exact Nat.ofDigitChars_toDigits (by decide) (by decide)

theorem length_padded {width n : Nat} (hWidth : 0 < width) (h : n < Nat.pow 10 width) :
    (padded width n).length = width := by
  have hLength := (Nat.length_toDigits_le_iff (by decide) hWidth).mpr h
  simp [padded]
  omega

/-- A written number has a first digit. -/
theorem exists_padded (width n : Nat) :
    ∃ c digits, padded width n = c :: digits ∧ c.isDigit = true := by
  have hNe : padded width n ≠ [] := by
    have hPos := @Nat.length_toDigits_pos 10 n
    intro h
    simp_all [padded]
  obtain ⟨c, digits, hPadded⟩ := List.exists_cons_of_ne_nil hNe
  exact ⟨c, digits, hPadded, isDigit_of_mem_padded (by rw [hPadded]; simp)⟩

/-! ## Blanks -/

theorem isBlank_of_isDigit {c : Char} (h : c.isDigit = true) : Text.isBlank c = false := by
  have hRange : 48 ≤ c.toNat ∧ c.toNat ≤ 57 := by
    simpa [Char.isDigit, UInt32.le_iff_toNat_le] using h
  simp [Text.isBlank]
  omega

theorem skipBlanks_cons {c : Char} (h : Text.isBlank c = false) (rest : List Char) :
    Text.skipBlanks (c :: rest) = c :: rest := by
  simp [Text.skipBlanks, h]

theorem skipBlanks_padded (width n : Nat) (rest : List Char) :
    Text.skipBlanks (padded width n ++ rest) = padded width n ++ rest := by
  obtain ⟨c, digits, hPadded, hDigit⟩ := exists_padded width n
  rw [hPadded, List.cons_append, skipBlanks_cons (isBlank_of_isDigit hDigit)]

/-! ## Where a number ends -/

/-- The characters do not begin with a digit. -/
def StopsDigits (rest : List Char) : Prop := ∀ c ∈ rest.head?, c.isDigit = false

theorem StopsDigits.takeWhile_eq_nil {rest : List Char} (h : StopsDigits rest) :
    rest.takeWhile Char.isDigit = [] := by
  cases rest with
  | nil => rfl
  | cons c rest => simp [h c (by simp)]

theorem StopsDigits.take {rest : List Char} (h : StopsDigits rest) (count : Nat) :
    StopsDigits (rest.take count) := by
  cases count with
  | zero => simp [StopsDigits]
  | succ count => cases rest <;> simp_all [StopsDigits]

theorem takeWhile_padded (width n : Nat) {rest : List Char} (h : StopsDigits rest) :
    (padded width n ++ rest).takeWhile Char.isDigit = padded width n := by
  rw [List.takeWhile_append_of_pos fun c => isDigit_of_mem_padded, h.takeWhile_eq_nil,
    List.append_nil]

/-- A number is read to its last digit, be it because no more digits are wanted or because
no more follow. -/
theorem number?_padded {width n most : Nat} {rest : List Char}
    (hMost : (padded width n).length ≤ most)
    (hStop : (padded width n).length = most ∨ StopsDigits rest) :
    number? most (padded width n ++ rest) = some (n, rest) := by
  have hRest : StopsDigits (rest.take (most - (padded width n).length)) := by
    cases hStop with
    | inl hFull => simp [hFull, StopsDigits]
    | inr hNone => exact hNone.take _
  have hDigits : ((padded width n ++ rest).take most).takeWhile Char.isDigit = padded width n := by
    rw [List.take_append, List.take_of_length_le hMost, takeWhile_padded width n hRest]
  have hNumber := ofDigits_padded width n
  obtain ⟨c, digits, hPadded, -⟩ := exists_padded width n
  unfold number?
  rw [hDigits]
  rw [hPadded] at hNumber ⊢
  simp [hNumber]

/-! ## Reading the parts -/

theorem part?_padded {n : Nat} (h : n < 100) (rest : List Char) :
    part? 2 (padded 2 n ++ rest) = some (n, rest) := by
  have hLength : (padded 2 n).length = 2 := length_padded (by decide) h
  rw [part?, skipBlanks_padded, number?_padded (by omega) (.inl hLength)]

theorem sign?_cons {c : Char} (h : Text.isBlank c = false) (rest : List Char) :
    sign? c (c :: rest) = some rest := by
  simp [sign?, skipBlanks_cons h]

theorem year?_yearText (year : Int) (rest : List Char) :
    year? (yearText year ++ '-' :: rest) = some (year, '-' :: rest) := by
  have hStop : StopsDigits ('-' :: rest) := by simp [StopsDigits]
  have hSigned (n : Nat) :
      number? (padded 4 n ++ '-' :: rest).length (padded 4 n ++ '-' :: rest) =
        some (n, '-' :: rest) :=
    number?_padded (by simp) (.inr hStop)
  have hMinus : Text.isBlank '-' = false := by decide
  have hPlus : Text.isBlank '+' = false := by decide
  unfold yearText
  by_cases hNegative : year < 0
  · have hYear : -((-year).toNat : Int) = year := by omega
    simp only [hNegative, if_true, List.cons_append, year?, skipBlanks_cons hMinus, hSigned,
      Option.map_some, hYear]
  · have hYear : (year.toNat : Int) = year := by omega
    by_cases hFour : year ≤ 9999
    · have hSmall : year.toNat < Nat.pow 10 4 := by simp; omega
      have hLength : (padded 4 year.toNat).length = 4 := length_padded (by decide) hSmall
      have hNumber : number? 4 (padded 4 year.toNat ++ '-' :: rest) =
          some (year.toNat, '-' :: rest) :=
        number?_padded (Nat.le_of_eq hLength) (.inl hLength)
      -- An unsigned year is told from a signed one by its first digit.
      obtain ⟨c, digits, hPadded, hDigit⟩ := exists_padded 4 year.toNat
      simp only [hNegative, hFour, if_false, if_true, year?, skipBlanks_padded]
      rw [hPadded, List.cons_append] at hNumber ⊢
      split <;> simp_all
    · simp only [hNegative, hFour, if_false, List.cons_append, year?, skipBlanks_cons hPlus,
        hSigned, Option.map_some, hYear]

/-- A fraction of less than ten digits counts units of its last digit. -/
theorem fraction?_padded {width n : Nat} {rest : List Char} (hWidth : 0 < width)
    (hNine : width ≤ 9) (h : n < Nat.pow 10 width) (hStop : StopsDigits rest) :
    fraction? ('.' :: (padded width n ++ rest)) =
      some (n * Nat.pow 10 (9 - width), rest) := by
  have hLength := length_padded hWidth h
  have hKept : (padded width n).take 9 = padded width n := List.take_of_length_le (by omega)
  have hRest : (padded width n ++ rest).drop width = rest := List.drop_left' hLength
  have hNumber := ofDigits_padded width n
  obtain ⟨c, digits, hPadded, -⟩ := exists_padded width n
  simp only [fraction?, takeWhile_padded width n hStop]
  rw [hPadded] at hLength hKept hNumber hRest ⊢
  simp only [hKept, hNumber, hLength, hRest]

theorem fraction?_fractionText {nanos : Nat} (h : nanos < 1000000000) {rest : List Char}
    (hStop : StopsDigits rest) (hDot : rest.head? ≠ some '.') :
    fraction? (fractionText nanos ++ rest) = some (nanos, rest) := by
  unfold fractionText
  by_cases hNone : nanos = 0
  · cases rest with
    | nil => simp [hNone, fraction?]
    | cons c rest =>
        have hFirst : c ≠ '.' := by simpa using hDot
        simp [hNone, fraction?, hFirst]
  · by_cases hMillis : nanos % 1000000 = 0
    · have hSmall : nanos / 1000000 < Nat.pow 10 3 := by simp; omega
      have hUnits : nanos / 1000000 * Nat.pow 10 6 = nanos := by simp; omega
      rw [if_neg hNone, if_pos hMillis, List.cons_append,
        fraction?_padded (by decide) (by decide) hSmall hStop, hUnits]
    · by_cases hMicros : nanos % 1000 = 0
      · have hSmall : nanos / 1000 < Nat.pow 10 6 := by simp; omega
        have hUnits : nanos / 1000 * Nat.pow 10 3 = nanos := by simp; omega
        rw [if_neg hNone, if_neg hMillis, if_pos hMicros, List.cons_append,
          fraction?_padded (by decide) (by decide) hSmall hStop, hUnits]
      · have hSmall : nanos < Nat.pow 10 9 := by simp; omega
        have hUnits : nanos * Nat.pow 10 0 = nanos := by simp
        rw [if_neg hNone, if_neg hMillis, if_neg hMicros, List.cons_append,
          fraction?_padded (by decide) (by decide) hSmall hStop, hUnits]

theorem fromOffset_zero {t : Instant} (hHour : t.hour < 24) (hMinute : t.minute < 60) :
    t.fromOffset 0 = t := by
  have hHours : (((t.hour : Int) * 60 + t.minute) / 60).toNat = t.hour := by omega
  have hMinutes : ((t.minute : Int) % 60).toNat = t.minute := by omega
  have hLow : ¬ ((t.hour : Int) * 60 + t.minute < 0) := by omega
  have hHigh : ¬ (1440 ≤ (t.hour : Int) * 60 + t.minute) := by omega
  simp [fromOffset, hHours, hMinutes, hLow, hHigh]

/-- Each number of a valid point in time fits the width in which it is written. -/
theorem bounds_of_isValid {t : Instant} (h : t.isValid) :
    t.date.month < 100 ∧ t.date.day < 100 ∧ t.hour < 24 ∧ t.minute < 60 ∧ t.second < 100 ∧
      t.nanos < 1000000000 := by
  have hDays : daysInMonth t.date.year t.date.month ≤ 31 := by grind [daysInMonth]
  simp [isValid, Date.isValid] at h
  omega

/-- A written point in time is read again. -/
theorem parse?_render {t : Instant} (h : t.isValid) : parse? t.render = some t := by
  obtain ⟨hMonth, hDay, hHour, hMinute, hSecond, hNanos⟩ := bounds_of_isValid h
  have hHere := fromOffset_zero hHour hMinute
  obtain ⟨⟨year, month, day⟩, hour, minute, second, nanos⟩ := t
  have hFraction : fraction? (fractionText nanos ++ ['Z']) = some (nanos, ['Z']) :=
    fraction?_fractionText hNanos (by simp [StopsDigits]) (by simp)
  have hDash : Text.isBlank '-' = false := by decide
  have hColon : Text.isBlank ':' = false := by decide
  have hZulu : Text.skipBlanks ['Z'] = ['Z'] := skipBlanks_cons (by decide) []
  have hEnd : Text.skipBlanks [] = [] := rfl
  have hTwo : 24 < 100 ∧ 60 < 100 := by decide
  rw [parse?, render, String.toList_ofList, renderChars]
  simp only [List.append_assoc, List.cons_append]
  -- The parts are read one after the other, each up to where the next one begins.
  refine Option.bind_eq_some_iff.2 ⟨_, year?_yearText year _, ?_⟩
  refine Option.bind_eq_some_iff.2 ⟨_, sign?_cons hDash _, ?_⟩
  refine Option.bind_eq_some_iff.2 ⟨_, part?_padded hMonth _, ?_⟩
  refine Option.bind_eq_some_iff.2 ⟨_, sign?_cons hDash _, ?_⟩
  refine Option.bind_eq_some_iff.2 ⟨_, part?_padded hDay _, ?_⟩
  refine Option.bind_eq_some_iff.2 ⟨_, rfl, ?_⟩
  refine Option.bind_eq_some_iff.2 ⟨_, part?_padded (Nat.lt_trans hHour hTwo.1) _, ?_⟩
  refine Option.bind_eq_some_iff.2 ⟨_, sign?_cons hColon _, ?_⟩
  refine Option.bind_eq_some_iff.2 ⟨_, part?_padded (Nat.lt_trans hMinute hTwo.2) _, ?_⟩
  refine Option.bind_eq_some_iff.2 ⟨_, sign?_cons hColon _, ?_⟩
  refine Option.bind_eq_some_iff.2 ⟨_, part?_padded hSecond _, ?_⟩
  refine Option.bind_eq_some_iff.2 ⟨_, hFraction, ?_⟩
  refine Option.bind_eq_some_iff.2 ⟨(0, []), by rw [hZulu]; rfl, ?_⟩
  simp only [hHere, hEnd, h, and_self, if_true]

end EventJournal.Instant
