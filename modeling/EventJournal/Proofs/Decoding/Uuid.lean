import EventJournal.Uuid

/-!
# Reading an identifier that was written

Writing cuts the 32 digits of an identifier into five groups and puts hyphens between
them. Reading has four forms to tell apart, and it is the first character and the length
that decide: a digit neither opens a brace nor begins `urn:`, so a written identifier is
read as groups, the hyphens stand where they must, and the digits between them spell the
number that was written.
-/

namespace EventJournal.Uuid

/-! ## Digits -/

theorem hexValue?_digitChar : ∀ d < 16, hexValue? (Nat.digitChar d) = some d := by decide

/-- No digit begins the form in braces or the form after `urn:`. -/
theorem digitChar_ne : ∀ d < 16, Nat.digitChar d ≠ '\x7b' ∧ Nat.digitChar d ≠ 'u' := by decide

@[simp]
theorem length_hexDigits (width n : Nat) : (hexDigits width n).length = width := by
  induction width generalizing n with
  | zero => rfl
  | succ width ih => simp [hexDigits, ih]

theorem mem_hexDigits {width n : Nat} {c : Char} (h : c ∈ hexDigits width n) :
    ∃ d < 16, c = Nat.digitChar d := by
  induction width generalizing n with
  | zero => simp [hexDigits] at h
  | succ width ih =>
      simp only [hexDigits, List.mem_append, List.mem_singleton] at h
      cases h with
      | inl hRest => exact ih hRest
      | inr hLast => exact ⟨n % 16, Nat.mod_lt n (by decide), hLast⟩

/-- Digits spell the number they were written from, as far as they reach. -/
theorem ofHexDigits?_hexDigits (width n : Nat) :
    ofHexDigits? (hexDigits width n) = some (n % Nat.pow 16 width) := by
  induction width generalizing n with
  | zero => simp [hexDigits, ofHexDigits?, Nat.mod_one]
  | succ width ih =>
      have hDigit := hexValue?_digitChar (n % 16) (Nat.mod_lt n (by decide))
      have hRest := ih (n / 16)
      have hSplit : n / 16 % Nat.pow 16 width * 16 + n % 16 = n % Nat.pow 16 (width + 1) := by
        simp only [Nat.pow_eq, Nat.pow_succ', Nat.mod_mul]
        omega
      unfold ofHexDigits? at hRest ⊢
      rw [← hSplit]
      simp only [hexDigits, List.foldlM_append, hRest]
      simp [hDigit]

theorem ofSimple?_hexDigits (u : Uuid) : ofSimple? (hexDigits 32 u.bits.toNat) = some u := by
  have hBits : u.bits.toNat % Nat.pow 16 32 = u.bits.toNat := Nat.mod_eq_of_lt u.bits.isLt
  simp only [ofSimple?, length_hexDigits, ofHexDigits?_hexDigits, hBits]
  simp

/-! ## Groups -/

/-- The grouped form spells the digits of its groups. -/
theorem ofGrouped?_groups {a b c d e : List Char} (ha : a.length = 8) (hb : b.length = 4)
    (hc : c.length = 4) (hd : d.length = 4) (he : e.length = 12) :
    ofGrouped? (a ++ '-' :: (b ++ '-' :: (c ++ '-' :: (d ++ '-' :: e)))) =
      ofSimple? (a ++ b ++ c ++ d ++ e) := by
  have hDrop (size : Nat) {group : List Char} (h : group.length ≤ size) : group.drop size = [] :=
    List.drop_eq_nil_of_le h
  simp [ofGrouped?, ha, hb, hc, hd, he, List.drop_append, List.getElem?_append,
    List.getElem?_cons, hDrop]

/-- The groups are cut from the digits and leave none out. -/
theorem groups_eq {digits : List Char} (h : digits.length = 32) :
    digits.take 8 ++ (digits.drop 8).take 4 ++ (digits.drop 12).take 4 ++
      (digits.drop 16).take 4 ++ (digits.drop 20).take 12 = digits := by
  have hLast : (digits.drop 20).take 12 = digits.drop 20 := List.take_of_length_le (by simp [h])
  simp only [← List.take_add, hLast, List.take_append_drop]

theorem toList_render (u : Uuid) :
    u.render.toList =
      let digits := hexDigits 32 u.bits.toNat
      digits.take 8 ++ '-' :: ((digits.drop 8).take 4 ++ '-' :: ((digits.drop 12).take 4 ++
        '-' :: ((digits.drop 16).take 4 ++ '-' :: (digits.drop 20).take 12))) := by
  simp [render]

/-- What begins with a digit and has more than 32 characters is read as groups. -/
theorem parse?_of_digit {s : String} {d : Nat} {rest : List Char} (hDigit : d < 16)
    (hChars : s.toList = Nat.digitChar d :: rest) (hLength : rest.length = 35) :
    parse? s = ofGrouped? s.toList := by
  have hOpen := digitChar_ne d hDigit
  simp only [parse?, hChars]
  split <;> simp_all

/-- A written identifier is read again. -/
theorem parse?_render (u : Uuid) : parse? u.render = some u := by
  have hChars := toList_render u
  have hSimple := ofSimple?_hexDigits u
  have hLength := length_hexDigits 32 u.bits.toNat
  have hDigits (c : Char) (h : c ∈ hexDigits 32 u.bits.toNat) := mem_hexDigits h
  generalize hexDigits 32 u.bits.toNat = digits at hChars hSimple hLength hDigits
  have hGrouped : ofGrouped? u.render.toList = some u := by
    rw [hChars, ofGrouped?_groups (by simp [hLength]) (by simp [hLength]) (by simp [hLength])
      (by simp [hLength]) (by simp [hLength]), groups_eq hLength, hSimple]
  cases digits with
  | nil => simp at hLength
  | cons c rest =>
      obtain ⟨d, hDigit, rfl⟩ := hDigits c (by simp)
      simp only [List.length_cons] at hLength
      rw [parse?_of_digit hDigit hChars (by simp; omega), hGrouped]

end EventJournal.Uuid
