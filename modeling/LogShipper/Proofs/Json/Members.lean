import LogShipper.Json.Reader.Value
import LogShipper.Proofs.Json.Skipping

/-!
# Items between brackets

The loops over elements and members follow a run of items: `Chain` links what one item after the
other makes of the state. A loop that keeps the text of every item shows that no text is an array or
an object in two ways.
-/

namespace LogShipper.Json

/-! ## What comes next -/

section

variable {first : Bool} {u w r s : List Char}

theorem nextItem_close (first : Bool) (hw : Gap w) (r : List Char) :
    nextItem first (w ++ ']' :: r) = .ok (.close r) := by
  unfold nextItem
  rw [skipSpace_append hw, skipSpace_cons (by decide)]
  rfl

theorem nextItem_lead (hu : Lead first u) {c : Char} (hc : startsValue c = true) (r : List Char) :
    nextItem first (u ++ c :: r) = .ok (.part (c :: r)) := by
  have hspace := not_space_of_startsValue hc
  have hcloser : c ≠ ']' := startsValue_ne hc (by decide)
  cases hu with
  | first hw =>
      unfold nextItem
      rw [skipSpace_append hw, skipSpace_cons hspace]
      split
      · rename_i heq
        cases heq
      · rename_i heq
        cases heq
        exact absurd rfl hcloser
      · rename_i heq
        cases heq
        rfl
  | @next v w hv hw =>
      have hcomma : skipSpace (v ++ ',' :: w ++ c :: r) = ',' :: (w ++ c :: r) := by
        rw [List.append_assoc, skipSpace_append hv, List.cons_append, skipSpace_cons (by decide)]
      unfold nextItem
      rw [hcomma]
      split
      · rename_i heq
        cases heq
      · rename_i heq
        cases heq
      · rename_i heq
        cases heq
        rw [if_neg Bool.false_ne_true, if_pos rfl, skipSpace_append hw, skipSpace_cons hspace]
        split
        · rename_i heq
          cases heq
        · rename_i heq
          cases heq
          exact absurd rfl hcloser
        · rfl

theorem close_of_nextItem (h : nextItem first s = .ok (.close r)) :
    ∃ w, Gap w ∧ s = w ++ ']' :: r := by
  obtain ⟨w, hw, hs⟩ := exists_gap s
  refine ⟨w, hw, ?_⟩
  unfold nextItem at h
  split at h
  · cases h
  · rename_i heq
    cases h
    rw [heq] at hs
    exact hs
  · split at h
    · cases h
    split at h
    · split at h
      · cases h
      · cases h
      · cases h
    · cases h

theorem lead_of_nextItem (h : nextItem first s = .ok (.part r)) :
    ∃ u, Lead first u ∧ s = u ++ r := by
  obtain ⟨v, hv, hs⟩ := exists_gap s
  unfold nextItem at h
  split at h
  · cases h
  · cases h
  · rename_i c r' _ heq
    rw [heq] at hs
    split at h
    · rename_i hfirst
      subst hfirst
      cases h
      exact ⟨v, .first hv, hs⟩
    rename_i hfirst
    rw [Bool.not_eq_true] at hfirst
    subst hfirst
    split at h
    · rename_i hc
      subst hc
      obtain ⟨w, hw, hr⟩ := exists_gap r'
      split at h
      · cases h
      · cases h
      · cases h
        refine ⟨v ++ ',' :: w, .next hv hw, ?_⟩
        rw [hs, List.append_assoc, List.cons_append, ← hr]
    · cases h

theorem nextMember_close (first : Bool) (hw : Gap w) (r : List Char) :
    nextMember first (w ++ '\x7d' :: r) = .ok (.close r) := by
  unfold nextMember
  rw [skipSpace_append hw, skipSpace_cons (by decide)]
  rfl

theorem nextMember_lead (hu : Lead first u) (r : List Char) :
    nextMember first (u ++ '"' :: r) = .ok (.part r) := by
  cases hu with
  | first hw =>
      unfold nextMember
      rw [skipSpace_append hw, skipSpace_cons (by decide)]
      rfl
  | @next v w hv hw =>
      have hcomma : skipSpace (v ++ ',' :: w ++ '"' :: r) = ',' :: (w ++ '"' :: r) := by
        rw [List.append_assoc, skipSpace_append hv, List.cons_append, skipSpace_cons (by decide)]
      unfold nextMember
      rw [hcomma]
      split
      · rename_i heq
        cases heq
      · rename_i heq
        cases heq
      · rename_i heq
        cases heq
        rw [if_neg Bool.false_ne_true, if_pos rfl, skipSpace_append hw, skipSpace_cons (by decide)]
        rfl

theorem close_of_nextMember (h : nextMember first s = .ok (.close r)) :
    ∃ w, Gap w ∧ s = w ++ '\x7d' :: r := by
  obtain ⟨w, hw, hs⟩ := exists_gap s
  refine ⟨w, hw, ?_⟩
  unfold nextMember at h
  split at h
  · cases h
  · rename_i heq
    cases h
    rw [heq] at hs
    exact hs
  · split at h
    · split at h
      · cases h
      · cases h
    split at h
    · split at h
      · cases h
      · cases h
      · cases h
      · cases h
    · cases h

theorem lead_of_nextMember (h : nextMember first s = .ok (.part r)) :
    ∃ u, Lead first u ∧ s = u ++ '"' :: r := by
  obtain ⟨v, hv, hs⟩ := exists_gap s
  unfold nextMember at h
  split at h
  · cases h
  · cases h
  · rename_i c r' _ heq
    rw [heq] at hs
    split at h
    · rename_i hfirst
      subst hfirst
      split at h
      · rename_i hc
        subst hc
        cases h
        exact ⟨v, .first hv, hs⟩
      · cases h
    rename_i hfirst
    rw [Bool.not_eq_true] at hfirst
    subst hfirst
    split at h
    · rename_i hc
      subst hc
      obtain ⟨w, hw, hr⟩ := exists_gap r'
      split at h
      · cases h
      · rename_i heq'
        cases h
        refine ⟨v ++ ',' :: w, .next hv hw, ?_⟩
        rw [hs, List.append_assoc, List.cons_append, ← heq', ← hr]
      · cases h
      · cases h
    · cases h

theorem closeList_close (hw : Gap w) (r : List Char) : closeList (w ++ ']' :: r) = .ok r := by
  unfold closeList
  rw [skipSpace_append hw, skipSpace_cons (by decide)]
  rfl

theorem close_of_closeList (h : closeList s = .ok r) : ∃ w, Gap w ∧ s = w ++ ']' :: r := by
  obtain ⟨w, hw, hs⟩ := exists_gap s
  refine ⟨w, hw, ?_⟩
  unfold closeList at h
  split at h
  · cases h
  · rename_i heq
    cases h
    rw [heq] at hs
    exact hs
  · split at h
    · cases h
    · cases h
  · cases h

end

/-! ## Loops -/

/-- From one state to another, one step for each element. -/
inductive Chain {σ α : Type} (Step : σ → α → σ → Prop) : σ → List α → σ → Prop where
  | nil {st : σ} : Chain Step st [] st
  | cons {st st' st'' : σ} {x : α} {xs : List α} (h : Step st x st')
      (rest : Chain Step st' xs st'') : Chain Step st (x :: xs) st''

theorem Chain.imp {σ α : Type} {Step Step' : σ → α → σ → Prop} {st st' : σ} {xs : List α}
    (hchain : Chain Step st xs st') (h : ∀ st st', ∀ x ∈ xs, Step st x st' → Step' st x st') :
    Chain Step' st xs st' := by
  induction hchain with
  | nil => exact .nil
  | cons hstep _ ih =>
      refine .cons (h _ _ _ List.mem_cons_self hstep) (ih ?_)
      intro st st' x hx
      exact h st st' x (List.mem_cons_of_mem _ hx)

/-- Wherever the text stands, it is read as the value. -/
def Reads {α : Type} (reader : Reader α) (t : List Char) (v : α) : Prop :=
  ∀ ⦃w left : List Char⦄, Gap w → Stops left → reader (w ++ (t ++ left)) = .ok (v, left)

/-- The same for a reader that stands behind a name, before the colon. -/
def ReadsBehindName {α : Type} (reader : Reader α) (t : List Char) (v : α) : Prop :=
  ∀ ⦃u w left : List Char⦄, Gap u → Gap w → Stops left →
    reader (u ++ ':' :: (w ++ (t ++ left))) = .ok (v, left)

variable {σ : Type}

theorem foldItems_run {step : σ → Reader σ} {left : List Char} {first : Bool}
    {values : List (List Char)} {s : List Char}
    (h : Run ']' (Bracket.Item .list) left first values s) (hvalues : ∀ t ∈ values, IsValue t) :
    ∀ {st st' : σ} {clock : List Char},
      Chain (fun st t st' => Reads (step st) t st') st values st' → s.length ≤ clock.length →
        foldItems step clock first st s = .ok (st', left) := by
  -- An item takes a character at least, so the clock lasts as long as the text.
  induction h with
  | @close first w hw =>
      intro st st' clock hchain hclock
      cases hchain
      cases clock with
      | nil => simp at hclock
      | cons _ clock => rw [foldItems, nextItem_close first hw, ok_bind]
  | @item first value values u t s hu ht hrest ih =>
      intro st st' clock hchain hclock
      cases ht with
      | element =>
          cases hchain with
          | @cons _ st₁ _ _ _ hstep hchain =>
              have hvalue := hvalues value List.mem_cons_self
              have hread := hstep gap_nil (hrest.stops (Or.inl rfl))
              obtain ⟨c, r, rfl, hc⟩ := hvalue.cons
              cases clock with
              | nil => simp at hclock
              | cons _ clock =>
                  have hlength : s.length ≤ clock.length := by
                    simp at hclock
                    omega
                  rw [List.nil_append, List.cons_append] at hread
                  rw [foldItems, List.cons_append, nextItem_lead hu hc, ok_bind]
                  simp only [hread, ok_bind]
                  exact ih (fun t ht => hvalues t (List.mem_cons_of_mem _ ht)) hchain hlength

theorem foldMembers_run {step : σ → String → Reader σ} {left : List Char} {first : Bool}
    {members : List (String × List Char)} {s : List Char}
    (h : Run '\x7d' Member left first members s) :
    ∀ {st st' : σ} {clock : List Char},
      Chain (fun st m st' => ReadsBehindName (step st m.1) m.2 st') st members st' →
      s.length ≤ clock.length → foldMembers step clock first st s = .ok (st', left) := by
  induction h with
  | @close first w hw =>
      intro st st' clock hchain hclock
      cases hchain
      cases clock with
      | nil => simp at hclock
      | cons _ clock => rw [foldMembers, nextMember_close first hw, ok_bind]
  | @item first m members u t s hu ht hrest ih =>
      intro st st' clock hchain hclock
      obtain ⟨name, hname, hnamed⟩ := ht
      cases hnamed with
      | @mk v w hv hw =>
          cases hchain with
          | @cons _ st₁ _ _ _ hstep hchain =>
              have hread := hstep hv hw (hrest.stops (Or.inr rfl))
              cases clock with
              | nil => simp at hclock
              | cons _ clock =>
                  have hlength : s.length ≤ clock.length := by
                    simp at hclock
                    omega
                  simp only [List.append_assoc, List.cons_append]
                  rw [foldMembers, nextMember_lead hu, ok_bind]
                  simp only [readString_append hname, ok_bind, hread]
                  exact ih hchain hlength

/-- Whatever a step is to tell about the value it reads, a loop that ends has read a run. -/
theorem run_of_foldMembers {step : σ → String → Reader σ}
    {Step : σ → String × List Char → σ → Prop}
    (hstep : ∀ ⦃st st' : σ⦄ ⦃name : String⦄ ⦃r r' : List Char⦄,
      step st name r = .ok (st', r') →
      ∃ v w t, Gap v ∧ Gap w ∧ IsValue t ∧ r = v ++ ':' :: (w ++ (t ++ r')) ∧
        Step st (name, t) st')
    {clock : List Char} :
    ∀ {first : Bool} {st st' : σ} {s left : List Char},
      foldMembers step clock first st s = .ok (st', left) →
      ∃ members, Run '\x7d' Member left first members s ∧ (∀ m ∈ members, IsValue m.2) ∧
        Chain Step st members st' := by
  induction clock with
  | nil =>
      intro first st st' s left h
      cases h
  | cons _ clock ih =>
      intro first st st' s left h
      rw [foldMembers] at h
      obtain ⟨next, hnext, hgo⟩ := ok_of_bind h
      cases next with
      | close r =>
          cases hgo
          obtain ⟨w, hw, rfl⟩ := close_of_nextMember hnext
          exact ⟨[], .close hw, by simp, .nil⟩
      | part r =>
          obtain ⟨u, hu, rfl⟩ := lead_of_nextMember hnext
          obtain ⟨⟨name, r₁⟩, hname, hvalue⟩ := ok_of_bind hgo
          obtain ⟨b, hb, rfl⟩ := spells_of_readString hname
          obtain ⟨⟨st₁, r₂⟩, hread, hmore⟩ := ok_of_bind hvalue
          obtain ⟨v, w, t, hv, hw, ht, rfl, hst⟩ := hstep hread
          obtain ⟨members, hrun, hvalues, hchain⟩ := ih hmore
          refine ⟨(name, t) :: members, ?_, List.forall_mem_cons.mpr ⟨ht, hvalues⟩,
            .cons hst hchain⟩
          have hmember : Member (name, t) ('"' :: (b ++ '"' :: (v ++ ':' :: (w ++ t)))) :=
            ⟨b, hb, .mk hv hw⟩
          simpa using Run.item hu hmember hrun

/-! ## Loops that collect -/

section

variable {α : Type} {reader : Reader α} {left s : List Char}

theorem chain_onto {β γ : Type} {Step : List γ → β → List γ → Prop} {R : β → γ → Prop}
    (h : ∀ done x y, R x y → Step done x (y :: done)) {xs : List β} {ys : List γ}
    (hxy : List.Forall₂ R xs ys) (done : List γ) : Chain Step done xs (ys.reverse ++ done) := by
  induction hxy generalizing done with
  | nil => exact .nil
  | @cons x y xs ys hR _ ih =>
      rw [List.reverse_cons, List.append_assoc]
      exact .cons (h done x y hR) (ih (y :: done))

theorem foldItems_collect {values : List (List Char)}
    (h : Run ']' (Bracket.Item .list) left true values s) (hvalues : ∀ t ∈ values, IsValue t)
    {items : List α} (hitems : List.Forall₂ (Reads reader) values items) :
    foldItems (fun done r => do
      let (v, r) ← reader r
      .ok (v :: done, r)) s true [] s = .ok (items.reverse, left) := by
  rw [foldItems_run h hvalues (chain_onto ?_ hitems []) (Nat.le_refl _), List.append_nil]
  intro done t v hread w left hw hleft
  simp only [hread hw hleft, ok_bind]

theorem foldMembers_collect {members : List (String × List Char)}
    (h : Run '\x7d' Member left true members s) {values : List (String × α)}
    (hvalues : List.Forall₂ (fun m p => m.1 = p.1 ∧ Reads reader m.2 p.2) members values) :
    foldMembers (fun done name r => do
      let r ← expectColon r
      let (v, r) ← reader r
      .ok ((name, v) :: done, r)) s true [] s = .ok (values.reverse, left) := by
  rw [foldMembers_run h (chain_onto ?_ hvalues []) (Nat.le_refl _), List.append_nil]
  rintro done m p ⟨hname, hread⟩ u w left hu hw hleft
  simp only [expectColon_append hu, ok_bind, hread hw hleft, hname]

end

theorem readItems_run {item : Reader Json} {left s : List Char} {values : List (List Char)}
    (h : Run ']' (Bracket.Item .list) left true values s) (hvalues : ∀ t ∈ values, IsValue t)
    {items : List Json} (hitems : List.Forall₂ (Reads item) values items) :
    readItems item s = .ok (.array items, left) := by
  unfold readItems
  rw [foldItems_collect h hvalues hitems, ok_bind]
  simp

theorem readMembers_run {item : Reader Json} {left s : List Char}
    {members : List (String × List Char)} (h : Run '\x7d' Member left true members s)
    {values : List (String × Json)}
    (hvalues : List.Forall₂ (fun m p => m.1 = p.1 ∧ Reads item m.2 p.2) members values) :
    readMembers item s = .ok (.object values, left) := by
  unfold readMembers
  rw [foldMembers_collect h hvalues, ok_bind]
  simp

/-! ## Whole texts -/

theorem readAll_of_reads {α : Type} {reader : Reader α} {text : String} {t : List Char} {v : α}
    (htext : Holds text t) (h : Reads reader t v) : readAll reader text = .ok v := by
  obtain ⟨u, w, hu, hw, heq⟩ := htext
  have hstops : Stops w := by simpa using stops_of_gap hw stops_nil
  unfold readAll
  rw [heq, h hu hstops, ok_bind]
  simp only [skipSpace_eq_nil_iff.mpr hw]

theorem read_of_readAll {α : Type} {reader : Reader α} {text : String} {v : α}
    (h : readAll reader text = .ok v) : ∃ w, Gap w ∧ reader text.toList = .ok (v, w) := by
  unfold readAll at h
  obtain ⟨⟨x, w⟩, hread, hend⟩ := ok_of_bind h
  dsimp only at hend
  split at hend
  · rename_i hspace
    cases hend
    exact ⟨w, skipSpace_eq_nil_iff.mp hspace, hread⟩
  · cases hend

/-! ## No text is read in two ways -/

/-- The text of a value, which is only passed over. -/
def valueText : Reader (List Char) := fun s => do
  let r ← skipValue s
  .ok ((skipSpace s).take ((skipSpace s).length - r.length), r)

theorem reads_valueText {t : List Char} (ht : IsValue t) : Reads valueText t t := by
  intro w left hw hleft
  obtain ⟨c, r, hcons, hc⟩ := ht.cons
  have hspace : skipSpace (w ++ (t ++ left)) = t ++ left := by
    rw [skipSpace_append hw, hcons, List.cons_append,
      skipSpace_cons (not_space_of_startsValue hc)]
  unfold valueText
  rw [skipValue_append ht hw hleft, ok_bind, hspace]
  simp

theorem Holds.unique {text : String} {t t' : List Char} (h : Holds text t) (h' : Holds text t')
    (ht : IsValue t) (ht' : IsValue t') : t = t' := by
  have hread := readAll_of_reads h (reads_valueText ht)
  rw [readAll_of_reads h' (reads_valueText ht')] at hread
  exact (Except.ok.inj hread).symm

/-- The loop that keeps the text of every element ends with the elements. -/
theorem IsList.unique {values values' : List (List Char)} {t : List Char}
    (h : IsList values t) (h' : IsList values' t) : values = values' := by
  obtain ⟨⟨s, rfl, hrun⟩, hvalues⟩ := h
  obtain ⟨⟨s', heq, hrun'⟩, hvalues'⟩ := h'
  cases heq
  have hkeep := foldItems_collect hrun hvalues
    (List.forall₂_same.mpr fun v hv => reads_valueText (hvalues v hv))
  rw [foldItems_collect hrun' hvalues'
    (List.forall₂_same.mpr fun v hv => reads_valueText (hvalues' v hv))] at hkeep
  simpa using hkeep.symm

theorem IsObject.unique {members members' : List (String × List Char)} {t : List Char}
    (h : IsObject members t) (h' : IsObject members' t) : members = members' := by
  obtain ⟨⟨s, rfl, hrun⟩, hvalues⟩ := h
  obtain ⟨⟨s', heq, hrun'⟩, hvalues'⟩ := h'
  cases heq
  have hkeep := foldMembers_collect hrun
    (List.forall₂_same.mpr fun m hm => ⟨rfl, reads_valueText (hvalues m hm)⟩)
  rw [foldMembers_collect hrun'
    (List.forall₂_same.mpr fun m hm => ⟨rfl, reads_valueText (hvalues' m hm)⟩)] at hkeep
  simpa using hkeep.symm

end LogShipper.Json
