import LogShipper.Proofs.Digits
import LogShipper.Proofs.Json.Strings

/-!
# Numbers in JSON texts

A number that is passed over may be any number of the grammar, as long as nothing stands behind it
that could belong to it. A number that is read as an integer of 64 bits is the one that was written.
-/

namespace LogShipper.Json

/-! ## Passing over -/

theorem skipDigits_append {ds : List Char} (h : ∀ c ∈ ds, c.isDigit = true) {left : List Char}
    (hleft : digitNext left = false) : skipDigits (ds ++ left) = left := by
  unfold skipDigits
  rw [List.dropWhile_append_of_pos h]
  cases left with
  | nil => rfl
  | cons c left =>
      have hc : c.isDigit = false := hleft
      exact List.dropWhile_cons_of_neg (by simp [hc])

theorem digits_of_digitNext {s : List Char} (h : digitNext s = true) :
    ∃ ds, Digits ds ∧ s = ds ++ skipDigits s := by
  refine ⟨s.takeWhile Char.isDigit, ⟨?_, ?_⟩, List.takeWhile_append_dropWhile.symm⟩
  · cases s with
    | nil => cases h
    | cons c s =>
        have hc : c.isDigit = true := h
        rw [List.takeWhile_cons_of_pos hc]
        exact List.cons_ne_nil _ _
  · intro c hc
    exact List.mem_takeWhile_imp hc

theorem Digits.digitNext {ds : List Char} (h : Digits ds) (left : List Char) :
    digitNext (ds ++ left) = true := by
  obtain ⟨c, r, rfl, hc, -⟩ := h.cons
  exact hc

theorem skipScale_of_stops {s : List Char} (h : Stops s) : skipScale s = .ok s := by
  unfold skipScale
  split
  · exact absurd rfl h.ne.2.2.1
  · exact absurd rfl h.ne.2.2.2
  · rfl

theorem skipExponent_append {sign ds : List Char}
    (hsign : sign = [] ∨ sign = ['+'] ∨ sign = ['-']) (hds : Digits ds) {left : List Char}
    (hleft : Stops left) : skipExponent (sign ++ (ds ++ left)) = .ok left := by
  have hread : (if digitNext (ds ++ left) then .ok (skipDigits (ds ++ left))
      else .error (.within .badNumber (ds ++ left)) : Except Fault (List Char)) = .ok left := by
    rw [if_pos (hds.digitNext left), skipDigits_append hds.2 hleft.digitNext]
  obtain ⟨c, r, rfl, hc, -⟩ := hds.cons
  rcases hsign with rfl | rfl | rfl
  · unfold skipExponent
    split
    · rename_i heq
      cases heq
      cases hc
    · rename_i heq
      cases heq
      cases hc
    · exact hread
  · exact hread
  · exact hread

theorem skipScale_append {e : List Char} (he : Exponent e) {left : List Char}
    (hleft : Stops left) : skipScale (e ++ left) = .ok left := by
  cases he with
  | none => exact skipScale_of_stops hleft
  | digits hletter hsign hds =>
      rw [List.cons_append, List.append_assoc]
      rcases hletter with rfl | rfl <;> exact skipExponent_append hsign hds hleft

theorem Exponent.digitNext {e : List Char} (he : Exponent e) {left : List Char}
    (hleft : Stops left) : digitNext (e ++ left) = false := by
  cases he with
  | none => exact hleft.digitNext
  | digits hletter _ _ => rcases hletter with rfl | rfl <;> rfl

theorem Fraction.digitNext {f e : List Char} (hf : Fraction f) (he : Exponent e)
    {left : List Char} (hleft : Stops left) : digitNext (f ++ (e ++ left)) = false := by
  cases hf with
  | none => exact he.digitNext hleft
  | digits _ => rfl

theorem not_point_of_exponent {e : List Char} (he : Exponent e) {left r : List Char}
    (hleft : Stops left) : e ++ left ≠ '.' :: r := by
  intro heq
  cases he with
  | none =>
      rw [List.nil_append] at heq
      subst heq
      exact hleft.ne.2.1 rfl
  | digits hletter _ _ =>
      rcases hletter with rfl | rfl <;> cases heq

/-- What is left behind the digits before the point. -/
def skipWhole (s : List Char) : Except Fault (List Char) :=
  match s with
  | '0' :: r => if digitNext r then .error (.within .badNumber r) else .ok r
  | s => if digitNext s then .ok (skipDigits s) else .error (.within .badNumber s)

/-- What is left behind a fraction and an exponent, if there are any. -/
def skipFraction (s : List Char) : Except Fault (List Char) :=
  match s with
  | '.' :: r => if digitNext r then skipScale (skipDigits r) else .error (.within .badNumber r)
  | r => skipScale r

theorem skipNumber_eq (s : List Char) : skipNumber s = skipWhole s >>= skipFraction := by
  unfold skipNumber skipWhole
  split
  · rename_i r
    simp only
    cases digitNext r with
    | false => rfl
    | true => rfl
  · simp only
    cases digitNext s with
    | false => rfl
    | true => rfl

theorem skipWhole_append {w : List Char} (hw : Whole w) {left : List Char}
    (hleft : digitNext left = false) : skipWhole (w ++ left) = .ok left := by
  cases hw with
  | zero =>
      show (if digitNext left then _ else Except.ok left) = _
      rw [if_neg (by simp [hleft])]
  | @digits c s hzero h =>
      have hskip := skipDigits_append h.2 hleft
      have hnext := h.digitNext left
      rw [List.cons_append] at hskip hnext ⊢
      unfold skipWhole
      split
      · rename_i heq
        cases heq
        exact absurd rfl hzero
      · rw [if_pos hnext, hskip]

theorem skipFraction_append {f e : List Char} (hf : Fraction f) (he : Exponent e)
    {left : List Char} (hleft : Stops left) : skipFraction (f ++ (e ++ left)) = .ok left := by
  cases hf with
  | none =>
      unfold skipFraction
      split
      · rename_i heq
        exact absurd heq (not_point_of_exponent he hleft)
      · exact skipScale_append he hleft
  | @digits ds hds =>
      have hskip := skipDigits_append hds.2 (he.digitNext hleft)
      show (if digitNext (ds ++ (e ++ left)) then skipScale (skipDigits (ds ++ (e ++ left)))
        else _) = _
      rw [if_pos (hds.digitNext _), hskip]
      exact skipScale_append he hleft

theorem skipNumber_append {t : List Char} (ht : Magnitude t) {left : List Char}
    (hleft : Stops left) : skipNumber (t ++ left) = .ok left := by
  obtain ⟨w, f, e, hw, hf, he, rfl⟩ := ht
  rw [List.append_assoc, List.append_assoc, skipNumber_eq,
    skipWhole_append hw (hf.digitNext he hleft), ok_bind, skipFraction_append hf he hleft]

theorem exponent_of_skipExponent {e : Char} (he : e = 'e' ∨ e = 'E') {s r : List Char}
    (h : skipExponent s = .ok r) : ∃ x, Exponent x ∧ e :: s = x ++ r := by
  unfold skipExponent at h
  have hsign : ∃ sign t, (sign = [] ∨ sign = ['+'] ∨ sign = ['-']) ∧ s = sign ++ t ∧
      (if digitNext t then .ok (skipDigits t) else .error (.within .badNumber t)) =
        (.ok r : Except Fault (List Char)) := by
    split at h
    · exact ⟨['+'], _, Or.inr (Or.inl rfl), rfl, h⟩
    · exact ⟨['-'], _, Or.inr (Or.inr rfl), rfl, h⟩
    · exact ⟨[], _, Or.inl rfl, rfl, h⟩
  obtain ⟨sign, t, hsign, rfl, hdigits⟩ := hsign
  split at hdigits
  · rename_i hnext
    obtain ⟨ds, hds, ht⟩ := digits_of_digitNext hnext
    rw [Except.ok.inj hdigits] at ht
    exact ⟨e :: (sign ++ ds), .digits he hsign hds, by simp [ht]⟩
  · cases hdigits

theorem exponent_of_skipScale {s r : List Char} (h : skipScale s = .ok r) :
    ∃ e, Exponent e ∧ s = e ++ r := by
  unfold skipScale at h
  split at h
  · exact exponent_of_skipExponent (Or.inl rfl) h
  · exact exponent_of_skipExponent (Or.inr rfl) h
  · cases h
    exact ⟨[], .none, rfl⟩

theorem whole_of_skipWhole {s r : List Char} (h : skipWhole s = .ok r) :
    ∃ w, Whole w ∧ s = w ++ r := by
  unfold skipWhole at h
  split at h
  · split at h
    · cases h
    · cases h
      exact ⟨['0'], .zero, rfl⟩
  · rename_i hzero
    split at h
    · rename_i hnext
      obtain ⟨ds, hds, hs⟩ := digits_of_digitNext hnext
      rw [Except.ok.inj h] at hs
      obtain ⟨c, t, rfl, -, -⟩ := hds.cons
      refine ⟨c :: t, .digits ?_ hds, hs⟩
      rintro rfl
      exact hzero _ hs
    · cases h

theorem fraction_of_skipFraction {s r : List Char} (h : skipFraction s = .ok r) :
    ∃ f e, Fraction f ∧ Exponent e ∧ s = f ++ (e ++ r) := by
  unfold skipFraction at h
  split at h
  · split at h
    · rename_i hnext
      obtain ⟨ds, hds, hs⟩ := digits_of_digitNext hnext
      obtain ⟨e, he, hscale⟩ := exponent_of_skipScale h
      rw [hscale] at hs
      exact ⟨'.' :: ds, e, .digits hds, he, by simp [hs]⟩
    · cases h
  · obtain ⟨e, he, rfl⟩ := exponent_of_skipScale h
    exact ⟨[], e, .none, he, rfl⟩

theorem magnitude_of_skipNumber {s r : List Char} (h : skipNumber s = .ok r) :
    ∃ t, Magnitude t ∧ s = t ++ r := by
  rw [skipNumber_eq] at h
  obtain ⟨r', hwhole, hfraction⟩ := ok_of_bind h
  obtain ⟨w, hw, rfl⟩ := whole_of_skipWhole hwhole
  obtain ⟨f, e, hf, he, rfl⟩ := fraction_of_skipFraction hfraction
  exact ⟨w ++ (f ++ e), ⟨w, f, e, hw, hf, he, rfl⟩, by simp⟩

/-! ## Integers -/

theorem whole_digits (n : Nat) : Whole (Decimal.digits n) := by
  obtain ⟨c, s, hs, hc⟩ := Decimal.exists_digits_eq n
  have hdigit : ∀ d ∈ Decimal.digits n, d.isDigit = true := fun d hd =>
    Decimal.isDigit_of_mem_digits hd
  by_cases hn : n = 0
  · subst hn
    exact .zero
  · rw [hs] at hdigit ⊢
    exact .digits (hc hn) ⟨List.cons_ne_nil _ _, hdigit⟩

theorem magnitude_digits (n : Nat) : Magnitude (Decimal.digits n) :=
  ⟨Decimal.digits n, [], [], whole_digits n, .none, .none, by simp⟩

theorem isNumber_integer (n : Int) : IsNumber (Decimal.integer n) := by
  cases n with
  | ofNat n => exact Or.inl (magnitude_digits n)
  | negSucc n => exact Or.inr ⟨_, magnitude_digits (n + 1), rfl⟩

/-- Digits are taken up to the last one as long as they make a number within the limit. -/
theorem takeDigits_append {limit : Nat} {ds left : List Char} (hds : ∀ c ∈ ds, c.isDigit = true)
    (hleft : digitNext left = false) :
    ∀ {n count : Nat}, Decimal.extend n ds ≤ limit →
      takeDigits limit n count (ds ++ left) = (Decimal.extend n ds, count + ds.length, left) := by
  induction ds with
  | nil =>
      intro n count _
      cases left with
      | nil => rfl
      | cons c left =>
          have hc : c.isDigit = false := hleft
          simp [takeDigits, hc, Decimal.extend]
  | cons c ds ih =>
      intro n count hlimit
      have hc := hds c List.mem_cons_self
      have hle : 10 * n + Decimal.digitValue c ≤ limit :=
        Nat.le_trans (Decimal.le_extend _ ds) hlimit
      rw [List.cons_append, takeDigits, if_pos (by simp [hc, hle]),
        ih (fun d hd => hds d (List.mem_cons_of_mem _ hd)) hlimit, List.length_cons]
      have hcount : count + 1 + ds.length = count + (ds.length + 1) := by omega
      rw [hcount]
      rfl

theorem readTail_of_stops (negative : Bool) (significand : Nat) {s : List Char} (h : Stops s) :
    readTail negative significand s = wholeNumber negative significand s := by
  unfold readTail
  split
  · exact absurd rfl h.ne.2.1
  · exact absurd rfl h.ne.2.2.1
  · exact absurd rfl h.ne.2.2.2
  · rfl

/-- The digits of a number are read as its significand. -/
theorem readNumber_digits (negative : Bool) {n : Nat} (hn : n ≤ maxSignificand)
    {left : List Char} (hleft : Stops left) :
    readNumber negative (Decimal.digits n ++ left) = wholeNumber negative n left := by
  have hvalue : Decimal.extend 0 (Decimal.digits n) = n := Decimal.ofDigits_digits n
  have hwhole := whole_digits n
  generalize Decimal.digits n = ds at hvalue hwhole
  cases hwhole with
  | zero =>
      subst hvalue
      show (if digitNext left then _ else readTail negative 0 left) = _
      rw [if_neg (by simp [hleft.digitNext]), readTail_of_stops _ _ hleft]
      rfl
  | @digits c s hzero h =>
      have hs : ∀ d ∈ s, d.isDigit = true := fun d hd => h.2 d (List.mem_cons_of_mem _ hd)
      have hextend : Decimal.extend (Decimal.digitValue c) s = n := by
        rw [← hvalue]
        simp [Decimal.extend]
      have htake : takeDigits maxSignificand (Decimal.digitValue c) 0 (s ++ left) =
          (Decimal.extend (Decimal.digitValue c) s, 0 + s.length, left) :=
        takeDigits_append hs hleft.digitNext (hextend ▸ hn)
      rw [List.cons_append]
      unfold readNumber
      split
      · rename_i heq
        cases heq
      · rename_i heq
        cases heq
        exact absurd rfl hzero
      · rename_i heq
        obtain ⟨rfl, rfl⟩ := List.cons.inj heq
        rw [if_pos (h.2 c List.mem_cons_self), htake]
        simp only [hleft.digitNext, hextend]
        exact readTail_of_stops negative n hleft

/-- The integers that have a signed or an unsigned form of 64 bits. -/
def IsWord (n : Int) : Prop :=
  -9223372036854775808 ≤ n ∧ n ≤ 18446744073709551615

instance (n : Int) : Decidable (IsWord n) :=
  inferInstanceAs (Decidable (_ ∧ _))

theorem readNumber_natural {n : Nat} (hn : IsWord n) {left : List Char} (hleft : Stops left) :
    readNumber false (Decimal.digits n ++ left) = .ok (.int n, left) := by
  have hmax : maxSignificand = 18446744073709551615 := rfl
  have hle : n ≤ maxSignificand := by
    have := hn.2
    omega
  rw [readNumber_digits false hle hleft]
  rfl

theorem readNumber_negative {n : Nat} (hn : IsWord (.negSucc n)) {left : List Char}
    (hleft : Stops left) :
    readNumber true (Decimal.digits (n + 1) ++ left) = .ok (.int (.negSucc n), left) := by
  have hmax : maxSignificand = 18446744073709551615 := rfl
  have hpow : Nat.pow 2 63 = 9223372036854775808 := rfl
  have hle := hn.1
  have hwhole : 0 < n + 1 ∧ n + 1 ≤ Nat.pow 2 63 := by omega
  rw [readNumber_digits true (by omega) hleft]
  unfold wholeNumber
  rw [if_neg (by decide), if_pos hwhole]
  rfl

end LogShipper.Json
