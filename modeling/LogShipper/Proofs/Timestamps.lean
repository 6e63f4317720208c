import LogShipper.Calendar.Timestamp
import LogShipper.Proofs.Digits
import LogShipper.Proofs.Json.Strings

/-!
# Timestamps that are read back

The text written for an instant of the years 0 to 9999 is read as that instant: every number fills
its place with zeros and stands before a character that is no digit, a fraction drops no digits but
zeros, and a clock that is not ahead of UTC shows the time in UTC.
-/

namespace LogShipper.Calendar

/-! ## Characters -/

/-- No digit comes next. -/
def NoDigit (s : List Char) : Prop :=
  ∀ c ∈ s.head?, c.isDigit = false

theorem noDigit_cons {c : Char} (h : c.isDigit = false) (s : List Char) : NoDigit (c :: s) := by
  rintro d ⟨⟩
  exact h

theorem isBlank_of_isDigit {c : Char} (h : c.isDigit = true) : Text.isBlank c = false := by
  have hrange : 48 ≤ c.toNat ∧ c.toNat ≤ 57 := by
    simpa [Char.isDigit, UInt32.le_iff_toNat_le] using h
  simp only [Text.isBlank, Text.blankRanges, List.any_cons, List.any_nil, Bool.or_eq_false_iff,
    Bool.and_eq_false_iff, decide_eq_false_iff_not, Bool.or_false]
  omega

theorem trimStart_cons {c : Char} (h : Text.isBlank c = false) (s : List Char) :
    Text.trimStart (c :: s) = c :: s := by
  unfold Text.trimStart
  exact List.dropWhile_cons_of_neg (by simp [h])

/-! ## Numbers -/

theorem readDigits_append {ds : List Char} (hds : ∀ c ∈ ds, c.isDigit = true) {rest : List Char}
    (hrest : NoDigit rest) :
    ∀ {width n : Nat}, ds.length ≤ width → Decimal.extend n ds ≤ maxNumber →
      readDigits width n (ds ++ rest) = .ok (Decimal.extend n ds, rest) := by
  induction ds with
  | nil =>
      intro width n _ _
      cases width with
      | zero => rfl
      | succ width =>
          cases rest with
          | nil => rfl
          | cons c rest =>
              have hc := hrest c rfl
              simp [readDigits, hc, Decimal.extend]
  | cons c ds ih =>
      intro width n hwidth hmax
      obtain ⟨hc, hds⟩ := List.forall_mem_cons.mp hds
      cases width with
      | zero => simp at hwidth
      | succ width =>
          have hstep : ¬ maxNumber < 10 * n + Decimal.digitValue c := by
            have hle := Decimal.le_extend (10 * n + Decimal.digitValue c) ds
            exact Nat.not_lt.mpr (Nat.le_trans hle hmax)
          rw [List.cons_append, readDigits, hc, if_neg (by decide), if_neg hstep]
          exact ih hds (by simpa using hwidth) hmax

section

variable {k n width : Nat} {rest : List Char}

/-- A number that fills its place. -/
theorem exists_padZeros_eq (hn : n < Nat.pow 10 (k + 1)) :
    ∃ c s, Decimal.padZeros (k + 1) (Decimal.digits n) = c :: s ∧ c.isDigit = true := by
  have hlength := Decimal.length_padZeros hn
  have hdigit : ∀ c ∈ Decimal.padZeros (k + 1) (Decimal.digits n), c.isDigit = true :=
    fun c hc => Decimal.isDigit_of_mem_padZeros hc
  generalize Decimal.padZeros (k + 1) (Decimal.digits n) = ds at hlength hdigit
  cases ds with
  | nil => simp at hlength
  | cons c s => exact ⟨c, s, rfl, hdigit c List.mem_cons_self⟩

theorem readNumber_padZeros (hn : n < Nat.pow 10 (k + 1)) (hwidth : k + 1 ≤ width)
    (hmax : n ≤ maxNumber) (hrest : NoDigit rest) :
    readNumber width (Decimal.padZeros (k + 1) (Decimal.digits n) ++ rest) = .ok (n, rest) := by
  have hvalue : Decimal.extend 0 (Decimal.padZeros (k + 1) (Decimal.digits n)) = n :=
    Decimal.ofDigits_padZeros (k + 1) n
  have hread := readDigits_append (fun c hc => Decimal.isDigit_of_mem_padZeros hc) hrest
    (Nat.le_trans (Nat.le_of_eq (Decimal.length_padZeros hn)) hwidth) (hvalue.symm ▸ hmax)
  obtain ⟨c, s, hs, hc⟩ := exists_padZeros_eq hn
  rw [hvalue] at hread
  rw [hs, List.cons_append] at hread ⊢
  rw [readNumber, if_pos hc, hread]

theorem trimStart_padZeros (hn : n < Nat.pow 10 (k + 1)) (rest : List Char) :
    Text.trimStart (Decimal.padZeros (k + 1) (Decimal.digits n) ++ rest) =
      Decimal.padZeros (k + 1) (Decimal.digits n) ++ rest := by
  obtain ⟨c, s, hs, hc⟩ := exists_padZeros_eq hn
  rw [hs, List.cons_append, trimStart_cons (isBlank_of_isDigit hc)]

theorem le_maxNumber (hn : n < 1000000000) : n ≤ maxNumber := by
  have hmax : maxNumber = 9223372036854775807 := rfl
  omega

theorem readPart_padZeros {low high : Nat} (hlow : low ≤ n) (hhigh : n ≤ high) (hn : n < 100)
    (hrest : NoDigit rest) :
    readPart low high (Decimal.padZeros 2 (Decimal.digits n) ++ rest) = .ok (n, rest) := by
  have hn' : n < Nat.pow 10 (1 + 1) := hn
  have hread := readNumber_padZeros hn' (Nat.le_refl 2) (le_maxNumber (by omega)) hrest
  have htrim := trimStart_padZeros hn' rest
  unfold readPart
  rw [htrim, hread]
  show (if (low ≤ n && n ≤ high) = true then _ else _) = _
  rw [if_pos (by simp [hlow, hhigh])]

theorem readYear_padZeros (hn : n ≤ 9999) (hrest : NoDigit rest) :
    readYear (Decimal.padZeros 4 (Decimal.digits n) ++ rest) = .ok ((n : Int), rest) := by
  have hn' : n < Nat.pow 10 (3 + 1) := by
    have hpow : Nat.pow 10 (3 + 1) = 10000 := rfl
    omega
  have hread := readNumber_padZeros hn' (Nat.le_refl 4) (le_maxNumber (by omega)) hrest
  have htrim := trimStart_padZeros hn' rest
  obtain ⟨c, s, hs, hc⟩ := exists_padZeros_eq hn'
  have hrange : (-maxReadYear - 1 ≤ (n : Int) && (n : Int) ≤ maxReadYear) = true := by
    have hmax : maxReadYear = 2147483647 := rfl
    rw [Bool.and_eq_true]
    exact ⟨decide_eq_true (by omega), decide_eq_true (by omega)⟩
  unfold readYear
  rw [htrim]
  rw [hs, List.cons_append] at hread ⊢
  -- A digit is neither sign.
  split
  · rename_i heq
    cases heq
    cases hc
  · rename_i heq
    cases heq
    cases hc
  · rw [hread]
    show (if _ then _ else _) = _
    rw [if_pos hrange]

theorem readSeparator_cons {sep : Char} (h : Text.isBlank sep = false) (s : List Char) :
    readSeparator sep (sep :: s) = .ok s := by
  unfold readSeparator
  rw [trimStart_cons h]
  simp

/-! ## Fractions -/

theorem dropWhile_of_noDigit (hrest : NoDigit rest) : rest.dropWhile Char.isDigit = rest := by
  cases rest with
  | nil => rfl
  | cons c rest => exact List.dropWhile_cons_of_neg (by simp [hrest c rfl])

theorem readFraction_point (hn : n < Nat.pow 10 (k + 1)) (hk : k + 1 ≤ 9) (hrest : NoDigit rest) :
    readFraction ('.' :: (Decimal.padZeros (k + 1) (Decimal.digits n) ++ rest)) =
      .ok (n * Nat.pow 10 (9 - (k + 1)), rest) := by
  have hmax : n < 1000000000 :=
    Nat.lt_of_lt_of_le hn (Nat.pow_le_pow_right (by decide) hk)
  have hread := readNumber_padZeros hn hk (le_maxNumber hmax) hrest
  have hlength := Decimal.length_padZeros hn
  have hplaces : (Decimal.padZeros (k + 1) (Decimal.digits n) ++ rest).length - rest.length =
      k + 1 := by
    rw [List.length_append, hlength]
    omega
  unfold readFraction
  simp only [hread]
  show Except.ok (n * Nat.pow 10 (9 - (_ - rest.length)), rest.dropWhile Char.isDigit) = _
  rw [hplaces, dropWhile_of_noDigit hrest]

theorem readFraction_fractionText (hn : n < 1000000000) (hrest : NoDigit rest)
    (hpoint : ∀ s, rest ≠ '.' :: s) : readFraction (fractionText n ++ rest) = .ok (n, rest) := by
  unfold fractionText
  split
  · rename_i hzero
    subst hzero
    unfold readFraction
    split
    · rename_i heq
      exact absurd heq (hpoint _)
    · rfl
  split
  · rename_i hmillis
    have hsmall : n / 1000000 < Nat.pow 10 (2 + 1) := by
      have hpow : Nat.pow 10 (2 + 1) = 1000 := rfl
      omega
    have hvalue : n / 1000000 * Nat.pow 10 (9 - (2 + 1)) = n := by
      have hpow : Nat.pow 10 (9 - (2 + 1)) = 1000000 := rfl
      rw [hpow]
      omega
    rw [List.cons_append, readFraction_point hsmall (by decide) hrest, hvalue]
  split
  · rename_i hmicros
    have hsmall : n / 1000 < Nat.pow 10 (5 + 1) := by
      have hpow : Nat.pow 10 (5 + 1) = 1000000 := rfl
      omega
    have hvalue : n / 1000 * Nat.pow 10 (9 - (5 + 1)) = n := by
      have hpow : Nat.pow 10 (9 - (5 + 1)) = 1000 := rfl
      rw [hpow]
      omega
    rw [List.cons_append, readFraction_point hsmall (by decide) hrest, hvalue]
  · have hsmall : n < Nat.pow 10 (8 + 1) := hn
    have hvalue : n * Nat.pow 10 (9 - (8 + 1)) = n := Nat.mul_one n
    rw [List.cons_append, readFraction_point hsmall (by decide) hrest, hvalue]

end

/-! ## Instants -/

theorem daysIn_le {year : Int} {month : Nat} (h : 1 ≤ daysIn year month) :
    1 ≤ month ∧ month ≤ 12 ∧ daysIn year month ≤ 31 := by
  unfold daysIn at h ⊢
  split at h
  all_goals first | omega | skip
  · split <;> omega

theorem ofClock_zero {t : Instant} (hhour : t.hour < 24) (hminute : t.minute < 60) :
    Instant.ofClock t 0 = t := by
  have hday : Instant.minutesPerDay = 1440 := rfl
  have hminutes : (t.hour : Int) * 60 + t.minute - 0 = ((t.hour * 60 + t.minute : Nat) : Int) := by
    omega
  have hmod : (((t.hour * 60 + t.minute : Nat) : Int) % 1440).toNat = t.hour * 60 + t.minute := by
    omega
  unfold Instant.ofClock
  simp only [hminutes, hday, hmod]
  rw [if_neg (by omega), if_neg (by omega)]
  have hh : (t.hour * 60 + t.minute) / 60 = t.hour := by omega
  have hm : (t.hour * 60 + t.minute) % 60 = t.minute := by omega
  rw [hh, hm]

theorem readBetween_cons (s : List Char) : readBetween ('T' :: s) = .ok s :=
  rfl

theorem readZone_utc : readZone ['Z'] = .ok (0, []) :=
  rfl

/-- A point in time of the years that are written with four digits. -/
structure Instant.IsPlain (t : Instant) : Prop where
  valid : t.isValid = true
  year : 0 ≤ t.date.year ∧ t.date.year ≤ 9999

theorem yearText_natCast {n : Nat} (hn : n ≤ 9999) :
    yearText n = Decimal.padZeros 4 (Decimal.digits n) := by
  unfold yearText
  rw [if_neg (by omega), if_neg (by omega)]
  rfl

theorem Instant.ofChars_toText {t : Instant} (h : t.IsPlain) :
    Instant.ofChars t.toText.toList = .ok t := by
  obtain ⟨⟨year, month, day⟩, hour, minute, second, nanosecond⟩ := t
  obtain ⟨hvalid, hyear, hyear'⟩ := h
  obtain ⟨y, rfl⟩ := Int.eq_ofNat_of_zero_le hyear
  have hparts : (Date.isValid ⟨y, month, day⟩ = true ∧ hour < 24 ∧ minute < 60 ∧ second ≤ 60 ∧
      nanosecond < 1000000000) := by
    simpa [Instant.isValid, and_assoc] using hvalid
  obtain ⟨hdate, hhour, hminute, hsecond, hnano⟩ := hparts
  have hdays : 1 ≤ day ∧ day ≤ daysIn y month := by
    simp only [Date.isValid, Bool.and_eq_true, decide_eq_true_eq] at hdate
    exact ⟨hdate.1.2, hdate.2⟩
  obtain ⟨hmonth, hmonth', hday'⟩ := daysIn_le (Nat.le_trans hdays.1 hdays.2)
  have hmark : ∀ {c : Char} (s : List Char), c = '-' ∨ c = 'T' ∨ c = ':' ∨ c = 'Z' →
      NoDigit (c :: s) := by
    rintro c s (rfl | rfl | rfl | rfl) <;> exact noDigit_cons (by decide) s
  have hfraction : NoDigit (fractionText nanosecond ++ ['Z']) := by
    unfold fractionText
    repeat' split
    all_goals exact noDigit_cons (by decide) _
  have hy : (y : Int) ≤ 9999 := hyear'
  unfold Instant.ofChars Instant.toText
  simp only [String.toList_ofList, List.append_assoc, List.cons_append]
  rw [yearText_natCast (by omega), readYear_padZeros (by omega) (hmark _ (by simp)), Json.ok_bind]
  simp only
  rw [readSeparator_cons (by decide), Json.ok_bind,
    readPart_padZeros hmonth hmonth' (by omega) (hmark _ (by simp)), Json.ok_bind]
  simp only
  rw [readSeparator_cons (by decide), Json.ok_bind,
    readPart_padZeros hdays.1 (by omega) (by omega) (hmark _ (by simp)), Json.ok_bind]
  simp only [readBetween_cons, Json.ok_bind]
  rw [readPart_padZeros (by omega) (by omega) (by omega) (hmark _ (by simp)), Json.ok_bind]
  simp only
  rw [readSeparator_cons (by decide), Json.ok_bind,
    readPart_padZeros (by omega) (by omega) (by omega) (hmark _ (by simp)), Json.ok_bind]
  simp only
  rw [readSeparator_cons (by decide), Json.ok_bind,
    readPart_padZeros (by omega) hsecond (by omega) hfraction, Json.ok_bind]
  simp only
  rw [readFraction_fractionText hnano (hmark _ (by simp)) (by simp), Json.ok_bind]
  simp only
  rw [trimStart_cons (by decide), readZone_utc, Json.ok_bind]
  have hclock := ofClock_zero (t := ⟨⟨y, month, day⟩, hour, minute, second, nanosecond⟩)
    hhour hminute
  simp [Text.trimStart, hdate, hclock, Instant.minutesPerDay]

theorem Instant.parse_toText {t : Instant} (h : t.IsPlain) : Instant.parse t.toText = .ok t :=
  Instant.ofChars_toText h

/-- The last second of a leap day, with a fraction that ends in zeros. -/
example : Instant.IsPlain ⟨⟨2024, 2, 29⟩, 23, 59, 59, 120000000⟩ ∧
    Instant.toText ⟨⟨2024, 2, 29⟩, 23, 59, 59, 120000000⟩ = "2024-02-29T23:59:59.120Z" :=
  ⟨⟨by decide, by decide⟩, by decide +kernel⟩

theorem Instant.complaint?_toText {t : Instant} (h : t.IsPlain) :
    Instant.complaint? t.toText = none := by
  rw [Instant.complaint?, Instant.parse_toText h]

end LogShipper.Calendar
