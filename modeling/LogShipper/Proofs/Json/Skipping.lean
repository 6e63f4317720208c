import LogShipper.Proofs.Json.Numbers

/-!
# Passing over values

The reader that keeps its open brackets in a list takes exactly the values of the grammar, nested to
any depth. `Closes` is what it promises in the middle of a text: every open bracket, the innermost
first, still has its run of items before it.
-/

namespace LogShipper.Json

/-! ## Words, colons and names -/

theorem expectWord_append (word s : List Char) : expectWord word (word ++ s) = .ok s := by
  induction word with
  | nil => simp [expectWord]
  | cons c word ih => simpa [expectWord] using ih

theorem eq_append_of_expectWord {word : List Char} :
    ∀ {s r : List Char}, expectWord word s = .ok r → s = word ++ r := by
  induction word with
  | nil =>
      intro s r h
      simpa [expectWord] using h
  | cons w word ih =>
      intro s r h
      cases s with
      | nil => cases h
      | cons c s =>
          rw [expectWord] at h
          split at h
          · rename_i hc
            rw [hc, ih h, List.cons_append]
          · cases h

theorem expectColon_append {w : List Char} (hw : Gap w) (s : List Char) :
    expectColon (w ++ ':' :: s) = .ok s := by
  unfold expectColon
  rw [skipSpace_append hw, skipSpace_cons (by decide)]
  rfl

theorem colon_of_expectColon {s r : List Char} (h : expectColon s = .ok r) :
    ∃ w, Gap w ∧ s = w ++ ':' :: r := by
  obtain ⟨w, hw, hs⟩ := exists_gap s
  unfold expectColon at h
  split at h
  · cases h
  · rename_i heq
    cases h
    exact ⟨w, hw, by rw [← heq, ← hs]⟩
  · cases h

theorem skipName_append {v w name : List Char} (hv : Gap v) (hname : Body name) (hw : Gap w)
    (s : List Char) : skipName (v ++ '"' :: (name ++ '"' :: (w ++ ':' :: s))) = .ok s := by
  unfold skipName
  rw [skipSpace_append hv, skipSpace_cons (by decide)]
  simp only [skipString_append hname, ok_bind, expectColon_append hw]

theorem name_of_skipName {s r : List Char} (h : skipName s = .ok r) :
    ∃ v name w, Gap v ∧ Body name ∧ Gap w ∧ s = v ++ '"' :: (name ++ '"' :: (w ++ ':' :: r)) := by
  obtain ⟨v, hv, hs⟩ := exists_gap s
  unfold skipName at h
  split at h
  · cases h
  · rename_i s' heq
    obtain ⟨r', hstring, hcolon⟩ := ok_of_bind h
    obtain ⟨name, hname, rfl⟩ := body_of_skipString hstring
    obtain ⟨w, hw, rfl⟩ := colon_of_expectColon hcolon
    exact ⟨v, name, w, hv, hname, hw, by rw [← heq, ← hs]⟩
  · cases h

/-! ## Values without parts -/

theorem skipSimple_digit {c : Char} (hc : c.isDigit = true) (s : List Char) :
    skipSimple c s = skipNumber (c :: s) := by
  have hne : ∀ d : Char, d.isDigit = false → c ≠ d := by
    rintro d hd rfl
    rw [hc] at hd
    cases hd
  unfold skipSimple
  rw [if_neg (hne _ (by decide)), if_neg (hne _ (by decide)), if_neg (hne _ (by decide)),
    if_neg (hne _ (by decide)), if_neg (hne _ (by decide)), if_pos hc]

theorem skipSimple_number {t : List Char} (ht : IsNumber t) {left : List Char}
    (hleft : Stops left) : ∃ c u, t = c :: u ∧ (c.isDigit = true ∨ c = '-') ∧
      skipSimple c (u ++ left) = .ok left := by
  rcases ht with ht | ⟨s, hs, rfl⟩
  · obtain ⟨c, u, rfl, hc⟩ := ht.cons
    refine ⟨c, u, rfl, Or.inl hc, ?_⟩
    rw [skipSimple_digit hc]
    exact skipNumber_append ht hleft
  · exact ⟨'-', s, rfl, Or.inr rfl, skipNumber_append hs hleft⟩

theorem value_of_skipSimple {c : Char} {s r : List Char} (h : skipSimple c s = .ok r) :
    ∃ u, IsValue (c :: u) ∧ s = u ++ r := by
  unfold skipSimple at h
  split at h
  · rename_i hc
    subst hc
    exact ⟨_, .null, eq_append_of_expectWord h⟩
  split at h
  · rename_i hc
    subst hc
    exact ⟨_, .bool true, eq_append_of_expectWord h⟩
  split at h
  · rename_i hc
    subst hc
    exact ⟨_, .bool false, eq_append_of_expectWord h⟩
  split at h
  · rename_i hc
    subst hc
    obtain ⟨t, ht, rfl⟩ := magnitude_of_skipNumber h
    exact ⟨t, .number (Or.inr ⟨t, ht, rfl⟩), rfl⟩
  split at h
  · rename_i hc
    subst hc
    obtain ⟨b, hb, rfl⟩ := body_of_skipString h
    exact ⟨b ++ ['"'], .string hb, by simp⟩
  split at h
  · obtain ⟨t, ht, hs⟩ := magnitude_of_skipNumber h
    obtain ⟨d, u, rfl, -⟩ := ht.cons
    obtain ⟨rfl, rfl⟩ := List.cons.inj hs
    exact ⟨u, .number (Or.inl ht), rfl⟩
  · cases h

/-! ## Steps between brackets -/

/-- What is left before the value of the next item. -/
def enter (b : Bracket) (s : List Char) : Except Fault (List Char) :=
  match b with
  | .list => .ok s
  | .object => skipName s

theorem enter_item {b : Bracket} {value t : List Char} (ht : b.Item value t) {w : List Char}
    (hw : Gap w) (s : List Char) :
    ∃ v, Gap v ∧ enter b (w ++ (t ++ s)) = .ok (v ++ (value ++ s)) ∧
      (v ++ (value ++ s)).length ≤ (w ++ (t ++ s)).length := by
  cases ht with
  | element => exact ⟨w, hw, rfl, Nat.le_refl _⟩
  | @member name _ _ hname hnamed =>
      cases hnamed with
      | @mk u v hu hv =>
          have hskip := skipName_append hw hname hu (v ++ (value ++ s))
          refine ⟨v, hv, by simpa [enter] using hskip, ?_⟩
          simp
          omega

theorem item_of_enter {b : Bracket} {s v value left : List Char} (hv : Gap v)
    (h : enter b s = .ok (v ++ (value ++ left))) :
    ∃ w t, Gap w ∧ b.Item value t ∧ s = w ++ (t ++ left) := by
  cases b with
  | list =>
      cases h
      exact ⟨v, value, hv, .element, rfl⟩
  | object =>
      obtain ⟨w, name, u, hw, hname, hu, rfl⟩ := name_of_skipName h
      exact ⟨w, _, hw, .member hname (.mk hu hv), by simp⟩

/-- An item begins like a value. -/
theorem Bracket.Item.cons {b : Bracket} {value t : List Char} (ht : b.Item value t)
    (hvalue : IsValue value) : ∃ c r, t = c :: r ∧ startsValue c = true := by
  cases ht with
  | element => exact hvalue.cons
  | member _ hnamed =>
      cases hnamed with
      | mk => exact ⟨'"', _, rfl, by decide⟩

section

variable {w : List Char} (hw : Gap w) (e : Char) (clock : List Char) (bs : List Bracket)

include hw

theorem skipFrom_simple {c : Char} (hstart : startsValue c = true) (hlist : c ≠ '[')
    (hobject : c ≠ '\x7b') (r : List Char) :
    skipFrom (e :: clock) bs .value (w ++ c :: r) =
      skipSimple c r >>= skipFrom clock bs .separator := by
  rw [skipFrom, skipSpace_append hw, skipSpace_cons (not_space_of_startsValue hstart)]
  simp only [if_neg hlist, if_neg hobject]

theorem skipFrom_empty (b : Bracket) {v : List Char} (hv : Gap v) (r : List Char) :
    skipFrom (e :: clock) bs .value (w ++ b.opener :: (v ++ b.closer :: r)) =
      skipFrom clock bs .separator r := by
  rw [skipFrom, skipSpace_append hw]
  cases b with
  | list =>
      rw [skipSpace_cons (by decide)]
      simp only [Bracket.opener, if_pos, Bracket.closer]
      rw [skipSpace_append hv, skipSpace_cons (by decide)]
      rfl
  | object =>
      rw [skipSpace_cons (by decide)]
      simp only [Bracket.opener, if_pos, Bracket.closer]
      rw [if_neg (by decide), skipSpace_append hv, skipSpace_cons (by decide)]
      rfl

theorem skipFrom_open (b : Bracket) {v : List Char} (hv : Gap v) {c : Char}
    (hc : startsValue c = true) (r : List Char) :
    skipFrom (e :: clock) bs .value (w ++ b.opener :: (v ++ c :: r)) =
      enter b (c :: r) >>= skipFrom clock (b :: bs) .value := by
  rw [skipFrom, skipSpace_append hw]
  have hne : c ≠ b.closer := startsValue_ne hc (by cases b <;> decide)
  cases b with
  | list =>
      rw [skipSpace_cons (by decide)]
      simp only [Bracket.opener, if_pos]
      rw [skipSpace_append hv, skipSpace_cons (not_space_of_startsValue hc)]
      split
      · rename_i heq
        cases heq
      · rename_i heq
        cases heq
        exact absurd rfl hne
      · rfl
  | object =>
      rw [skipSpace_cons (by decide)]
      simp only [Bracket.opener, if_pos]
      rw [if_neg (by decide), skipSpace_append hv, skipSpace_cons (not_space_of_startsValue hc)]
      split
      · rename_i heq
        cases heq
      · rename_i heq
        cases heq
        exact absurd rfl hne
      · rfl

theorem skipFrom_close (b : Bracket) (r : List Char) :
    skipFrom (e :: clock) (b :: bs) .separator (w ++ b.closer :: r) =
      skipFrom clock bs .separator r := by
  rw [skipFrom, skipSpace_append hw, skipSpace_cons (by cases b <;> decide)]
  simp only [if_pos]

theorem skipFrom_comma (b : Bracket) (r : List Char) :
    skipFrom (e :: clock) (b :: bs) .separator (w ++ ',' :: r) =
      enter b r >>= skipFrom clock (b :: bs) .value := by
  rw [skipFrom, skipSpace_append hw, skipSpace_cons (by decide)]
  cases b <;> rfl

end

/-! ## Every value is passed over -/

/-- Wherever the text stands as a value, reading goes on behind it. -/
def Skips (t : List Char) : Prop :=
  ∀ ⦃w left clock : List Char⦄ (bs : List Bracket), Gap w → Stops left →
    (w ++ (t ++ left)).length ≤ clock.length →
    ∃ clock' : List Char, left.length ≤ clock'.length ∧
      skipFrom clock bs .value (w ++ (t ++ left)) = skipFrom clock' bs .separator left

theorem skips_simple {c : Char} {u : List Char} (hstart : startsValue c = true)
    (hlist : c ≠ '[') (hobject : c ≠ '\x7b')
    (h : ∀ {left : List Char}, Stops left → skipSimple c (u ++ left) = .ok left) :
    Skips (c :: u) := by
  intro w left clock bs hw hleft hclock
  cases clock with
  | nil => simp at hclock
  | cons e clock =>
      refine ⟨clock, ?_, ?_⟩
      · simp at hclock
        omega
      · rw [List.cons_append, skipFrom_simple hw e clock bs hstart hlist hobject, h hleft, ok_bind]

theorem skips_item {b : Bracket} {value t : List Char} (hvalue : Skips value)
    (ht : b.Item value t) {w left clock : List Char} (bs : List Bracket) (hw : Gap w)
    (hleft : Stops left) (hclock : (w ++ (t ++ left)).length ≤ clock.length) :
    ∃ clock' : List Char, left.length ≤ clock'.length ∧
      (enter b (w ++ (t ++ left)) >>= skipFrom clock bs .value) =
        skipFrom clock' bs .separator left := by
  obtain ⟨v, hv, henter, hlength⟩ := enter_item ht hw left
  rw [henter, ok_bind]
  exact hvalue bs hv hleft (Nat.le_trans hlength hclock)

/-- From one item to the next, the clock never runs out before the closing bracket. -/
theorem skipFrom_run {b : Bracket} {left : List Char} {values : List (List Char)} {s : List Char}
    (h : Run b.closer b.Item left false values s) (hvalues : ∀ t ∈ values, Skips t)
    (bs : List Bracket) :
    ∀ {clock : List Char}, s.length ≤ clock.length →
      ∃ clock' : List Char, left.length ≤ clock'.length ∧
        skipFrom clock (b :: bs) .separator s = skipFrom clock' bs .separator left := by
  -- The induction is on the run, whose index has to be a variable; behind an item it is false.
  generalize hfirst : false = first at h
  induction h with
  | close hw =>
      intro clock hclock
      cases clock with
      | nil => simp at hclock
      | cons e clock =>
          refine ⟨clock, ?_, skipFrom_close hw e clock bs b left⟩
          simp at hclock
          omega
  | @item _ value values u t s hu ht hrest ih =>
      intro clock hclock
      subst hfirst
      cases hu with
      | @next v w hv hw =>
          rw [List.append_assoc, List.cons_append] at hclock ⊢
          cases clock with
          | nil => simp at hclock
          | cons e clock =>
              have hstops : Stops s := hrest.stops (by cases b <;> simp [Bracket.closer])
              have hlength : (w ++ (t ++ s)).length ≤ clock.length := by
                simp at hclock ⊢
                omega
              obtain ⟨clock₁, hclock₁, hitem⟩ :=
                skips_item (hvalues value List.mem_cons_self) ht (b :: bs) hw hstops hlength
              obtain ⟨clock₂, hclock₂, hrun⟩ :=
                ih (fun t ht => hvalues t (List.mem_cons_of_mem _ ht)) rfl hclock₁
              refine ⟨clock₂, hclock₂, ?_⟩
              rw [skipFrom_comma hv, hitem, hrun]

theorem skips_number {t : List Char} (h : IsNumber t) : Skips t := by
  obtain ⟨c, u, rfl, hc, -⟩ := skipSimple_number h stops_nil
  have hstart : startsValue c = true ∧ c ≠ '[' ∧ c ≠ '\x7b' := by
    rcases hc with hc | rfl
    · refine ⟨by simp [startsValue, hc], ?_, ?_⟩ <;> (rintro rfl; cases hc)
    · decide
  refine skips_simple hstart.1 hstart.2.1 hstart.2.2 ?_
  intro left hleft
  obtain ⟨d, v, heq, -, hskip⟩ := skipSimple_number h hleft
  cases heq
  exact hskip

theorem skips_brackets {b : Bracket} {values : List (List Char)} {s : List Char}
    (hrun : Run b.closer b.Item [] true values s) (hvalues : ∀ t ∈ values, IsValue t)
    (hskips : ∀ t ∈ values, Skips t) : Skips (b.opener :: s) := by
  intro w left clock bs hw hleft hclock
  have hrun' := hrun.append left
  rw [List.nil_append] at hrun'
  cases clock with
  | nil => simp at hclock
  | cons e clock =>
      rw [List.cons_append] at hclock ⊢
      -- The run now ends where `left` begins, so it can be taken apart together with it.
      generalize s ++ left = s' at hrun' hclock
      cases hrun' with
      | close hv =>
          refine ⟨clock, ?_, skipFrom_empty hw e clock bs b hv left⟩
          simp at hclock
          omega
      | @item _ value values u t s'' hv ht hrest =>
          obtain ⟨hv⟩ := hv
          have hvalue := hvalues value List.mem_cons_self
          obtain ⟨c, r, rfl, hc⟩ := ht.cons hvalue
          have hstops : Stops s'' := hrest.stops (by cases b <;> simp [Bracket.closer])
          have hlength : ([] ++ (c :: r ++ s'')).length ≤ clock.length := by
            simp at hclock ⊢
            omega
          obtain ⟨clock₁, hclock₁, hitem⟩ :=
            skips_item (hskips value List.mem_cons_self) ht (b :: bs) gap_nil hstops hlength
          obtain ⟨clock₂, hclock₂, hrun⟩ := skipFrom_run hrest
            (fun t ht => hskips t (List.mem_cons_of_mem _ ht)) bs hclock₁
          refine ⟨clock₂, hclock₂, ?_⟩
          rw [List.cons_append, skipFrom_open hw e clock bs b hv hc, ← hrun, ← hitem]
          rfl

theorem skips_of_isValue {t : List Char} (h : IsValue t) : Skips t := by
  induction h with
  | null =>
      refine skips_simple (by decide) (by decide) (by decide) ?_
      intro left _
      exact expectWord_append "ull".toList left
  | bool b =>
      cases b with
      | false =>
          refine skips_simple (by decide) (by decide) (by decide) ?_
          intro left _
          exact expectWord_append "alse".toList left
      | true =>
          refine skips_simple (by decide) (by decide) (by decide) ?_
          intro left _
          exact expectWord_append "rue".toList left
  | number h => exact skips_number h
  | @string s h =>
      refine skips_simple (by decide) (by decide) (by decide) ?_
      intro left _
      have hskip := skipString_append h left
      simpa [skipSimple] using hskip
  | @brackets b values s hrun hvalues ih => exact skips_brackets hrun hvalues ih

theorem skipValue_append {t : List Char} (ht : IsValue t) {w left : List Char} (hw : Gap w)
    (hleft : Stops left) : skipValue (w ++ (t ++ left)) = .ok left := by
  obtain ⟨clock, -, hskip⟩ := skips_of_isValue ht [] hw hleft (Nat.le_refl _)
  rw [skipValue, hskip]
  cases clock <;> rfl

/-! ## Nothing else is passed over -/

/-- The open brackets, the innermost first, are closed one after the other, and `left` is left. -/
inductive Closes (left : List Char) : List Bracket → List Char → Prop where
  | nil : Closes left [] left
  | cons {b : Bracket} {bs : List Bracket} {values : List (List Char)} {s behind : List Char}
      (h : Run b.closer b.Item behind false values s) (hvalues : ∀ t ∈ values, IsValue t)
      (rest : Closes left bs behind) : Closes left (b :: bs) s

/-- A value stands here behind blanks, and then the open brackets are closed. -/
def Opens (left : List Char) (bs : List Bracket) (s : List Char) : Prop :=
  ∃ w t behind, Gap w ∧ IsValue t ∧ s = w ++ (t ++ behind) ∧ Closes left bs behind

/-- An item is entered, its value stands there, and the run goes on. -/
theorem Opens.item {b : Bracket} {bs : List Bracket} {left s r : List Char}
    (h : Opens left (b :: bs) r) (henter : enter b s = .ok r) :
    ∃ w value t values s' behind, Gap w ∧ b.Item value t ∧ s = w ++ (t ++ s') ∧
      Run b.closer b.Item behind false values s' ∧ (∀ u ∈ value :: values, IsValue u) ∧
      Closes left bs behind := by
  obtain ⟨v, value, s', hv, hvalue, rfl, hcloses⟩ := h
  obtain ⟨w, t, hw, ht, rfl⟩ := item_of_enter hv henter
  cases hcloses with
  | cons hrun hvalues hrest =>
      exact ⟨w, value, t, _, s', _, hw, ht, rfl, hrun,
        List.forall_mem_cons.mpr ⟨hvalue, hvalues⟩, hrest⟩

section

variable {e : Char} {clock : List Char} {bs : List Bracket} {s left : List Char}

/-- What stands where a value is awaited: a value without parts, an empty pair of brackets, or an
opening bracket with a first item. -/
theorem of_skipFrom_value (h : skipFrom (e :: clock) bs .value s = .ok left) :
    ∃ w, Gap w ∧
      ((∃ c r r', s = w ++ c :: r ∧ skipSimple c r = .ok r' ∧
          skipFrom clock bs .separator r' = .ok left) ∨
        (∃ b v r, Gap v ∧ s = w ++ Bracket.opener b :: (v ++ b.closer :: r) ∧
          skipFrom clock bs .separator r = .ok left) ∨
        ∃ b v r r', Gap v ∧ s = w ++ Bracket.opener b :: (v ++ r) ∧ enter b r = .ok r' ∧
          skipFrom clock (b :: bs) .value r' = .ok left) := by
  obtain ⟨w, hw, hs⟩ := exists_gap s
  rw [skipFrom] at h
  split at h
  · cases h
  rename_i c r heq
  rw [heq] at hs
  obtain ⟨v, hv, hr⟩ := exists_gap r
  refine ⟨w, hw, ?_⟩
  split at h
  · rename_i hc
    subst hc
    split at h
    · cases h
    · rename_i r' heq'
      rw [heq'] at hr
      exact Or.inr (Or.inl ⟨.list, v, r', hv, hr ▸ hs, h⟩)
    · exact Or.inr (Or.inr ⟨.list, v, skipSpace r, _, hv, hr ▸ hs, rfl, h⟩)
  split at h
  · rename_i hc
    subst hc
    split at h
    · cases h
    · rename_i r' heq'
      rw [heq'] at hr
      exact Or.inr (Or.inl ⟨.object, v, r', hv, hr ▸ hs, h⟩)
    · obtain ⟨r', hname, hvalue⟩ := ok_of_bind h
      exact Or.inr (Or.inr ⟨.object, v, skipSpace r, r', hv, hr ▸ hs, hname, hvalue⟩)
  · obtain ⟨r', hsimple, hnext⟩ := ok_of_bind h
    exact Or.inl ⟨c, r, r', hs, hsimple, hnext⟩

/-- What stands behind a value between brackets: the closing bracket, or a comma and an item. -/
theorem of_skipFrom_separator {b : Bracket}
    (h : skipFrom (e :: clock) (b :: bs) .separator s = .ok left) :
    ∃ w r, Gap w ∧
      ((s = w ++ b.closer :: r ∧ skipFrom clock bs .separator r = .ok left) ∨
        ∃ r', s = w ++ ',' :: r ∧ enter b r = .ok r' ∧
          skipFrom clock (b :: bs) .value r' = .ok left) := by
  obtain ⟨w, hw, hs⟩ := exists_gap s
  rw [skipFrom] at h
  split at h
  · cases h
  rename_i c r heq
  rw [heq] at hs
  refine ⟨w, r, hw, ?_⟩
  split at h
  · rename_i hc
    subst hc
    exact Or.inl ⟨hs, h⟩
  split at h
  · rename_i hc
    subst hc
    cases b with
    | list => exact Or.inr ⟨r, hs, rfl, h⟩
    | object =>
        obtain ⟨r', hname, hvalue⟩ := ok_of_bind h
        exact Or.inr ⟨r', hs, hname, hvalue⟩
  · cases h

end

theorem closes_of_skipFrom {clock : List Char} : ∀ {bs : List Bracket} {s left : List Char},
    (skipFrom clock bs .separator s = .ok left → Closes left bs s) ∧
      (skipFrom clock bs .value s = .ok left → Opens left bs s) := by
  -- Both places at once: behind a separator stands a value, and behind a value a separator.
  induction clock with
  | nil =>
      intro bs s left
      refine ⟨?_, ?_⟩
      · intro h
        cases bs with
        | nil =>
            cases h
            exact .nil
        | cons b bs => cases h
      · intro h
        cases bs <;> cases h
  | cons e clock ih =>
      intro bs s left
      refine ⟨?_, ?_⟩
      · intro h
        cases bs with
        | nil =>
            cases h
            exact .nil
        | cons b bs =>
            obtain ⟨w, r, hw, ⟨rfl, hclose⟩ | ⟨r', rfl, henter, hvalue⟩⟩ := of_skipFrom_separator h
            · exact .cons (.close hw) (by simp) (ih.1 hclose)
            · obtain ⟨v, value, t, values, s, behind, hv, ht, rfl, hrun, hvalues, hrest⟩ :=
                (ih.2 hvalue).item henter
              exact .cons (.next hw hv ht hrun) hvalues hrest
      · intro h
        obtain ⟨w, hw, ⟨c, r, r', rfl, hsimple, hnext⟩ | ⟨b, v, r, hv, rfl, hclose⟩ |
          ⟨b, v, r, r', hv, rfl, henter, hvalue⟩⟩ := of_skipFrom_value h
        · obtain ⟨u, hu, rfl⟩ := value_of_skipSimple hsimple
          exact ⟨w, c :: u, r', hw, hu, rfl, ih.1 hnext⟩
        · refine ⟨w, b.opener :: (v ++ [b.closer]), r, hw, ?_, by simp, ih.1 hclose⟩
          exact .brackets b (.close hv) (by simp)
        · obtain ⟨v', value, t, values, s, behind, hv', ht, rfl, hrun, hvalues, hrest⟩ :=
            (ih.2 hvalue).item henter
          obtain ⟨u, rfl, hu⟩ := hrun.cut
          have hgap : Gap (v ++ v') := List.forall_mem_append.mpr ⟨hv, hv'⟩
          refine ⟨w, b.opener :: ((v ++ v') ++ (t ++ u)), behind, hw, ?_, by simp, hrest⟩
          exact .brackets b (.item (.first hgap) ht hu) hvalues

theorem value_of_skipValue {s left : List Char} (h : skipValue s = .ok left) :
    ∃ w t, Gap w ∧ IsValue t ∧ s = w ++ (t ++ left) := by
  obtain ⟨w, t, behind, hw, ht, hs, hcloses⟩ := closes_of_skipFrom.2 h
  cases hcloses
  exact ⟨w, t, hw, ht, hs⟩

end LogShipper.Json
