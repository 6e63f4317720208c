import LogShipper.Proofs.Json.Grammar

/-!
# Strings in JSON texts

The reader of strings takes exactly what spells a text, and the one that only passes over a string
takes every body. What the printer puts between quotes spells the text it was given.
-/

namespace LogShipper.Json

/-! ## Steps of readers -/

section

variable {ε α β : Type}

theorem ok_bind (a : α) (f : α → Except ε β) : (Except.ok a >>= f) = f a :=
  rfl

theorem ok_of_bind {x : Except ε α} {f : α → Except ε β} {b : β} (h : (x >>= f) = .ok b) :
    ∃ a, x = .ok a ∧ f a = .ok b := by
  cases x with
  | error e => cases h
  | ok a => exact ⟨a, rfl, h⟩

end

/-! ## Hexadecimal digits -/

theorem four_le_byteCount (a b c d : Char) : 4 ≤ byteCount [a, b, c, d] := by
  have ha := a.utf8Size_pos
  have hb := b.utf8Size_pos
  have hc := c.utf8Size_pos
  have hd := d.utf8Size_pos
  simp only [byteCount, List.foldl_cons, List.foldl_nil]
  omega

theorem readHex_append {x : List Char} {n : Nat} (hx : Hex x n) (s : List Char) :
    readHex (x ++ s) = .ok (n, s) := by
  cases hx with
  | @digits a b c d w x y z ha hb hc hd =>
      have hbytes : ¬ byteCount (([a, b, c, d] ++ s).take 4) < 4 := by
        have := four_le_byteCount a b c d
        simpa using this
      unfold readHex
      rw [if_neg hbytes]
      simp only [List.cons_append, List.nil_append, ha, hb, hc, hd]

theorem hex_of_readHex {s r : List Char} {n : Nat} (h : readHex s = .ok (n, r)) :
    ∃ x, Hex x n ∧ s = x ++ r := by
  unfold readHex at h
  split at h
  · cases h
  split at h
  · split at h
    · rename_i ha hb hc hd
      cases h
      exact ⟨_, .digits ha hb hc hd, rfl⟩
    · cases h
  · cases h

/-! ## Reading -/

theorem readEscape_short {c d : Char} (h : shortEscape? c = some d) (s : List Char) :
    readEscape (c :: s) = .ok (d, s) := by
  have hc : c ≠ 'u' := by
    rintro rfl
    cases h
  unfold readEscape
  split
  · rename_i heq
    cases heq
  · rename_i heq
    cases heq
    exact absurd rfl hc
  · rename_i heq
    cases heq
    simp [h]

theorem readEscape_code {x : List Char} {n : Nat} (hx : Hex x n) (htrail : isTrail n = false)
    (hlead : isLead n = false) (s : List Char) :
    readEscape ('u' :: (x ++ s)) = .ok (Char.ofNat n, s) := by
  simp [readEscape, readHex_append hx, htrail, hlead, ok_bind]

theorem not_isTrail_of_isLead {n : Nat} (h : isLead n = true) : isTrail n = false := by
  simp only [isLead, isTrail, Bool.and_eq_true, decide_eq_true_eq, Bool.and_eq_false_iff,
    decide_eq_false_iff_not] at h ⊢
  omega

theorem readEscape_pair {x y : List Char} {m n : Nat} (hx : Hex x m) (hlead : isLead m = true)
    (hy : Hex y n) (htrail : isTrail n = true) (s : List Char) :
    readEscape ('u' :: (x ++ '\\' :: 'u' :: (y ++ s))) =
      .ok (Char.ofNat (0x10000 + (m - 0xD800) * 0x400 + (n - 0xDC00)), s) := by
  simp [readEscape, readTrail, readHex_append hx, readHex_append hy, hlead, htrail,
    not_isTrail_of_isLead hlead, ok_bind]

theorem readCharsOnto_escape {e left : List Char} {d : Char} (h : readEscape e = .ok (d, left))
    (b : Char) (clock done : List Char) :
    readCharsOnto (b :: clock) done ('\\' :: e) = readCharsOnto clock (d :: done) left := by
  rw [readCharsOnto, if_neg (by decide), if_pos rfl, h, ok_bind]

/-- What spells a text is read as that text, up to the quote. -/
theorem readCharsOnto_append {b t : List Char} (h : Spells b t) :
    ∀ (clock done left : List Char), (b ++ '"' :: left).length ≤ clock.length →
      readCharsOnto clock done (b ++ '"' :: left) = .ok (t.reverse ++ done, left) := by
  induction h with
  | nil =>
      intro clock done left hclock
      cases clock with
      | nil => simp at hclock
      | cons _ clock => simp [readCharsOnto]
  | @plain c s t hquote hslash hcontrol _ ih =>
      intro clock done left hclock
      cases clock with
      | nil => simp at hclock
      | cons _ clock =>
          have hrest := ih clock (c :: done) left (by simpa using hclock)
          rw [List.cons_append, readCharsOnto, if_neg hquote, if_neg hslash,
            if_neg (Nat.not_lt.mpr hcontrol), hrest]
          simp
  | @escape c d s t h _ ih =>
      intro clock done left hclock
      cases clock with
      | nil => simp at hclock
      | cons _ clock =>
          have hrest := ih clock (d :: done) left (by simp at hclock ⊢; omega)
          rw [List.cons_append, List.cons_append, readCharsOnto_escape (readEscape_short h _),
            hrest]
          simp
  | @code x n s t hx htrail hlead _ ih =>
      intro clock done left hclock
      cases clock with
      | nil => simp at hclock
      | cons _ clock =>
          have hrest := ih clock (Char.ofNat n :: done) left (by simp at hclock ⊢; omega)
          rw [List.cons_append, List.cons_append, List.append_assoc,
            readCharsOnto_escape (readEscape_code hx htrail hlead _), hrest]
          simp
  | @pair x y m n s t hx hlead hy htrail _ ih =>
      intro clock done left hclock
      cases clock with
      | nil => simp at hclock
      | cons _ clock =>
          have hlength : (s ++ '"' :: left).length ≤ clock.length := by
            simp only [List.length_append, List.length_cons] at hclock ⊢
            omega
          rw [List.cons_append, List.cons_append, List.append_assoc, List.cons_append,
            List.cons_append, List.append_assoc,
            readCharsOnto_escape (readEscape_pair hx hlead hy htrail _), ih clock _ left hlength,
            List.reverse_cons, List.append_assoc, List.singleton_append]

theorem readString_append {b : List Char} {v : String} (h : Spells b v.toList) (left : List Char) :
    readString (b ++ '"' :: left) = .ok (v, left) := by
  have hread := readCharsOnto_append h (b ++ '"' :: left) [] left le_rfl
  unfold readString
  split
  · rename_i heq
    simp at heq
  · rw [hread, ok_bind]
    simp

/-! ## What was read -/

theorem spells_of_readEscape {s r : List Char} {c : Char} (h : readEscape s = .ok (c, r)) :
    ∃ e, s = e ++ r ∧ ∀ b t, Spells b t → Spells ('\\' :: (e ++ b)) (c :: t) := by
  unfold readEscape at h
  split at h
  · cases h
  · obtain ⟨⟨m, r'⟩, hread, hnext⟩ := ok_of_bind h
    obtain ⟨x, hx, rfl⟩ := hex_of_readHex hread
    dsimp only at hnext
    split at hnext
    · cases hnext
    rename_i htrail
    split at hnext
    · -- The first half of a pair: the second half has to follow.
      rename_i hlead
      unfold readTrail at hnext
      split at hnext
      · cases hnext
      · cases hnext
      · obtain ⟨⟨n, r''⟩, hread', hlast⟩ := ok_of_bind hnext
        obtain ⟨y, hy, rfl⟩ := hex_of_readHex hread'
        dsimp only at hlast
        split at hlast
        · rename_i htrail'
          obtain ⟨rfl, rfl⟩ := Prod.mk.inj (Except.ok.inj hlast)
          refine ⟨'u' :: (x ++ '\\' :: 'u' :: y), by simp, ?_⟩
          intro b t hb
          rw [List.cons_append, List.append_assoc, List.cons_append, List.cons_append]
          exact .pair hx hlead hy htrail' hb
        · cases hlast
      · cases hnext
      · cases hnext
    · rename_i hlead
      cases hnext
      refine ⟨'u' :: x, by simp, ?_⟩
      intro b t hb
      simpa using Spells.code hx (by simpa using htrail) (by simpa using hlead) hb
  · rename_i d r' _
    split at h
    · rename_i e he
      cases h
      refine ⟨[d], rfl, ?_⟩
      intro b t hb
      exact .escape he hb
    · cases h

theorem spells_of_readCharsOnto {clock : List Char} :
    ∀ {done s done' r : List Char}, readCharsOnto clock done s = .ok (done', r) →
      ∃ b t, Spells b t ∧ s = b ++ '"' :: r ∧ done' = t.reverse ++ done := by
  induction clock with
  | nil =>
      intro done s done' r h
      cases h
  | cons _ clock ih =>
      intro done s done' r h
      cases s with
      | nil => cases h
      | cons c s =>
          rw [readCharsOnto] at h
          split at h
          · rename_i hquote
            cases h
            exact ⟨[], [], .nil, by simp [hquote], by simp⟩
          rename_i hquote
          split at h
          · rename_i hslash
            obtain ⟨⟨d, s'⟩, hread, hnext⟩ := ok_of_bind h
            obtain ⟨b, t, hb, rfl, rfl⟩ := ih hnext
            obtain ⟨e, rfl, hspell⟩ := spells_of_readEscape hread
            exact ⟨'\\' :: (e ++ b), d :: t, hspell b t hb, by simp [hslash], by simp⟩
          rename_i hslash
          split at h
          · cases h
          rename_i hcontrol
          obtain ⟨b, t, hb, rfl, rfl⟩ := ih h
          exact ⟨c :: b, c :: t, .plain hquote hslash (Nat.not_lt.mp hcontrol) hb, by simp,
            by simp⟩

/-- What is read as a text spells it. -/
theorem spells_of_readString {s r : List Char} {v : String} (h : readString s = .ok (v, r)) :
    ∃ b, Spells b v.toList ∧ s = b ++ '"' :: r := by
  unfold readString at h
  split at h
  · cases h
  · obtain ⟨⟨done, r'⟩, hread, hnext⟩ := ok_of_bind h
    cases hnext
    obtain ⟨b, t, hb, hs, rfl⟩ := spells_of_readCharsOnto hread
    refine ⟨b, ?_, hs⟩
    simpa using hb

/-! ## Passing over -/

theorem skipChars_append {b : List Char} (h : Body b) :
    ∀ clock left : List Char, (b ++ '"' :: left).length ≤ clock.length →
      skipChars clock (b ++ '"' :: left) = .ok left := by
  induction h with
  | nil =>
      intro clock left hclock
      cases clock with
      | nil => simp at hclock
      | cons _ clock => simp [skipChars]
  | @plain c s hquote hslash hcontrol _ ih =>
      intro clock left hclock
      cases clock with
      | nil => simp at hclock
      | cons _ clock =>
          rw [List.cons_append, skipChars, if_neg hquote, if_neg hslash,
            if_neg (Nat.not_lt.mpr hcontrol)]
          exact ih clock left (by simpa using hclock)
  | @escape c s h _ ih =>
      intro clock left hclock
      have hc : c ≠ 'u' := by
        rintro rfl
        cases h
      cases clock with
      | nil => simp at hclock
      | cons _ clock =>
          have hrest := ih clock left (by simp at hclock ⊢; omega)
          rw [List.cons_append, List.cons_append, skipChars, if_neg (by decide), if_pos rfl]
          simpa [skipEscape, hc, h, ok_bind] using hrest
  | @code x n s hx _ ih =>
      intro clock left hclock
      cases clock with
      | nil => simp at hclock
      | cons _ clock =>
          have hrest := ih clock left (by simp at hclock ⊢; omega)
          rw [List.cons_append, List.cons_append, List.append_assoc, skipChars,
            if_neg (by decide), if_pos rfl]
          simpa [skipEscape, readHex_append hx, ok_bind] using hrest

theorem skipString_append {b : List Char} (h : Body b) (left : List Char) :
    skipString (b ++ '"' :: left) = .ok left := by
  have hskip := skipChars_append h (b ++ '"' :: left) left le_rfl
  unfold skipString
  split
  · rename_i heq
    simp at heq
  · exact hskip

theorem body_of_skipEscape {s r : List Char} (h : skipEscape s = .ok r) :
    ∃ e, s = e ++ r ∧ ∀ b, Body b → Body ('\\' :: (e ++ b)) := by
  unfold skipEscape at h
  split at h
  · cases h
  · obtain ⟨⟨n, r'⟩, hread, hnext⟩ := ok_of_bind h
    obtain ⟨x, hx, rfl⟩ := hex_of_readHex hread
    cases hnext
    exact ⟨'u' :: x, by simp, fun b hb => by simpa using Body.code hx hb⟩
  · rename_i c r' _
    split at h
    · rename_i hc
      cases h
      exact ⟨[c], rfl, fun b hb => .escape hc hb⟩
    · cases h

theorem body_of_skipChars {clock : List Char} :
    ∀ {s r : List Char}, skipChars clock s = .ok r → ∃ b, Body b ∧ s = b ++ '"' :: r := by
  induction clock with
  | nil =>
      intro s r h
      cases h
  | cons _ clock ih =>
      intro s r h
      cases s with
      | nil => cases h
      | cons c s =>
          rw [skipChars] at h
          split at h
          · rename_i hquote
            cases h
            exact ⟨[], .nil, by simp [hquote]⟩
          rename_i hquote
          split at h
          · rename_i hslash
            obtain ⟨s', hread, hnext⟩ := ok_of_bind h
            obtain ⟨b, hb, rfl⟩ := ih hnext
            obtain ⟨e, rfl, hbody⟩ := body_of_skipEscape hread
            exact ⟨'\\' :: (e ++ b), hbody b hb, by simp [hslash]⟩
          rename_i hslash
          split at h
          · cases h
          rename_i hcontrol
          obtain ⟨b, hb, rfl⟩ := ih h
          exact ⟨c :: b, .plain hquote hslash (Nat.not_lt.mp hcontrol) hb, by simp⟩

theorem body_of_skipString {s r : List Char} (h : skipString s = .ok r) :
    ∃ b, Body b ∧ s = b ++ '"' :: r := by
  unfold skipString at h
  split at h
  · cases h
  · exact body_of_skipChars h

/-! ## Writing -/

theorem hex_control {n : Nat} (h : n < 0x20) :
    Hex (Decimal.padZeros 4 (Decimal.numeral 16 n)) n := by
  have htext : ∀ n < 0x20, Decimal.padZeros 4 (Decimal.numeral 16 n) =
      ['0', '0', Decimal.digitChar (n / 16), Decimal.digitChar (n % 16)] := by
    decide +kernel
  have hvalue : ∀ d < 16, Decimal.hexValue? (Decimal.digitChar d) = some d := by
    decide
  have hzero : Decimal.hexValue? '0' = some 0 := by decide
  have hhex := Hex.digits hzero hzero (hvalue (n / 16) (by omega)) (hvalue (n % 16) (by omega))
  have hn : ((0 * 16 + 0) * 16 + n / 16) * 16 + n % 16 = n := by omega
  rw [hn] at hhex
  rw [htext n h]
  exact hhex

theorem spells_escapeChar (c : Char) {b t : List Char} (h : Spells b t) :
    Spells (escapeChar c ++ b) (c :: t) := by
  unfold escapeChar
  repeat' split
  all_goals try (subst_vars; exact .escape rfl h)
  · rename_i hcontrol
    have hlow : isTrail c.toNat = false ∧ isLead c.toNat = false := by
      simp only [isTrail, isLead, Bool.and_eq_false_iff, decide_eq_false_iff_not]
      omega
    have hcode := Spells.code (hex_control hcontrol) hlow.1 hlow.2 h
    rwa [Char.ofNat_toNat] at hcode
  · rename_i hquote hslash _ _ _ _ _ hcontrol
    exact .plain hquote hslash (Nat.not_lt.mp hcontrol) h

theorem spells_flatMap_escapeChar (t : List Char) : Spells (t.flatMap escapeChar) t := by
  induction t with
  | nil => exact .nil
  | cons c t ih =>
      rw [List.flatMap_cons]
      exact spells_escapeChar c ih

/-- What is written for a string is the string. -/
theorem isString_stringText (v : String) : IsString v (stringText v) :=
  ⟨v.toList.flatMap escapeChar, spells_flatMap_escapeChar v.toList, rfl⟩

end LogShipper.Json
