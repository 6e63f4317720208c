import LogShipper.Decimal.Digits
import Mathlib.Data.List.Basic

/-!
# Decimal numerals

A numeral stands for the number it was written for, holds nothing but digits, begins with a zero for
zero alone, and is no longer than the number demands. Zeros in front change nothing.
-/

namespace LogShipper.Decimal

theorem isDigit_digitChar : ∀ d < 10, (digitChar d).isDigit = true := by
  decide

theorem digitValue_digitChar : ∀ d < 10, digitValue (digitChar d) = d := by
  decide

theorem digitChar_ne_zero : ∀ d < 10, d ≠ 0 → digitChar d ≠ '0' := by
  decide

/-- The number that digits behind a number make of it. -/
def extend (n : Nat) (s : List Char) : Nat :=
  s.foldl (fun n c => 10 * n + digitValue c) n

theorem extend_append (n : Nat) (s t : List Char) : extend n (s ++ t) = extend (extend n s) t :=
  List.foldl_append

theorem le_extend (n : Nat) (s : List Char) : n ≤ extend n s := by
  induction s generalizing n with
  | nil => exact Nat.le_refl n
  | cons c s ih =>
      have hle : n ≤ 10 * n + digitValue c := by omega
      exact Nat.le_trans hle (ih _)

theorem ofDigits_eq_extend (s : List Char) : ofDigits s = extend 0 s :=
  rfl

/-! ## Numerals -/

/-- Every step takes a digit off, and so at least one bit. -/
theorem div_ten_lt {fuel n : Nat} (h : n < Nat.pow 2 (fuel + 1)) : n / 10 < Nat.pow 2 fuel := by
  have hpow : Nat.pow 2 (fuel + 1) = Nat.pow 2 fuel * 2 := rfl
  omega

theorem isDigit_of_mem_numeralWithin {fuel n : Nat} {c : Char}
    (h : c ∈ numeralWithin 10 fuel n) : c.isDigit = true := by
  induction fuel generalizing n with
  | zero => cases h
  | succ fuel ih =>
      rw [numeralWithin] at h
      split at h
      · rename_i hn
        rw [List.mem_singleton.mp h]
        exact isDigit_digitChar n hn
      · rcases List.mem_append.mp h with h | h
        · exact ih h
        · rw [List.mem_singleton.mp h]
          exact isDigit_digitChar _ (by omega)

theorem ofDigits_numeralWithin {fuel n : Nat} (h : n < Nat.pow 2 fuel) :
    ofDigits (numeralWithin 10 fuel n) = n := by
  induction fuel generalizing n with
  | zero =>
      have hn : n = 0 := by simpa using h
      rw [hn]
      rfl
  | succ fuel ih =>
      rw [numeralWithin]
      split
      · rename_i hn
        simp [ofDigits, digitValue_digitChar n hn]
      · rw [ofDigits_eq_extend, extend_append, ← ofDigits_eq_extend, ih (div_ten_lt h)]
        have hlast := digitValue_digitChar (n % 10) (by omega)
        simp only [extend, List.foldl_cons, List.foldl_nil, hlast]
        omega

/-- Only the numeral of zero begins with a zero. -/
theorem exists_numeralWithin_eq {fuel n : Nat} (h : n < Nat.pow 2 (fuel + 1)) :
    ∃ c s, numeralWithin 10 (fuel + 1) n = c :: s ∧ (n ≠ 0 → c ≠ '0') := by
  induction fuel generalizing n with
  | zero =>
      have hpow : Nat.pow 2 (0 + 1) = 2 := rfl
      have hn : n < 10 := by omega
      rw [numeralWithin, if_pos hn]
      exact ⟨digitChar n, [], rfl, digitChar_ne_zero n hn⟩
  | succ fuel ih =>
      rw [numeralWithin]
      split
      · rename_i hn
        exact ⟨digitChar n, [], rfl, digitChar_ne_zero n hn⟩
      · obtain ⟨c, s, hs, hc⟩ := ih (div_ten_lt h)
        rw [hs]
        exact ⟨c, s ++ [digitChar (n % 10)], rfl, fun _ => hc (by omega)⟩

theorem length_numeralWithin_le {fuel n k : Nat} (h : n < Nat.pow 10 (k + 1)) :
    (numeralWithin 10 fuel n).length ≤ k + 1 := by
  induction fuel generalizing n k with
  | zero => exact Nat.zero_le _
  | succ fuel ih =>
      rw [numeralWithin]
      split
      · simp
      · cases k with
        | zero =>
            have hpow : Nat.pow 10 (0 + 1) = 10 := rfl
            omega
        | succ k =>
            have hpow : Nat.pow 10 (k + 1 + 1) = Nat.pow 10 (k + 1) * 10 := rfl
            have hdiv : n / 10 < Nat.pow 10 (k + 1) := by omega
            have hlength := ih hdiv
            simp only [List.length_append, List.length_singleton]
            omega

theorem isDigit_of_mem_digits {n : Nat} {c : Char} (h : c ∈ digits n) : c.isDigit = true :=
  isDigit_of_mem_numeralWithin h

theorem ofDigits_digits (n : Nat) : ofDigits (digits n) = n :=
  ofDigits_numeralWithin Nat.lt_log2_self

theorem exists_digits_eq (n : Nat) : ∃ c s, digits n = c :: s ∧ (n ≠ 0 → c ≠ '0') :=
  exists_numeralWithin_eq Nat.lt_log2_self

theorem length_digits_le {n k : Nat} (h : n < Nat.pow 10 (k + 1)) : (digits n).length ≤ k + 1 :=
  length_numeralWithin_le h

/-! ## Zeros in front -/

theorem extend_replicate_zero (k : Nat) (s : List Char) :
    extend 0 (List.replicate k '0' ++ s) = extend 0 s := by
  induction k with
  | zero => rfl
  | succ k ih => exact ih

theorem ofDigits_padZeros (width n : Nat) : ofDigits (padZeros width (digits n)) = n := by
  rw [padZeros, ofDigits_eq_extend, extend_replicate_zero, ← ofDigits_eq_extend, ofDigits_digits]

theorem isDigit_of_mem_padZeros {width n : Nat} {c : Char} (h : c ∈ padZeros width (digits n)) :
    c.isDigit = true := by
  rcases List.mem_append.mp h with h | h
  · rw [List.eq_of_mem_replicate h]
    decide
  · exact isDigit_of_mem_digits h

theorem length_padZeros {k n : Nat} (h : n < Nat.pow 10 (k + 1)) :
    (padZeros (k + 1) (digits n)).length = k + 1 := by
  have hle := length_digits_le h
  simp only [padZeros, List.length_append, List.length_replicate]
  omega

end LogShipper.Decimal
