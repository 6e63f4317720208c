import LogShipper.Proofs.Json.Fields
import Mathlib.Data.List.Nodup

/-!
# Texts of a shape

`Says shape t v` tells without a reader that the text `t` is a value of the shape and stands for
`v`: blanks may stand where they do not count, characters of strings may be escaped, the members of
a record come in any order and among unknown ones. Such a text is read as `v`.
-/

namespace LogShipper.Json

/-! ## Values of another type -/

theorem misread_ne_ok {α : Type} (expected : String) (s r : List Char) (v : α) :
    misread expected s ≠ .ok (v, r) := by
  intro h
  unfold misread at h
  split at h
  · obtain ⟨_, -, hfault⟩ := ok_of_bind h
    cases hfault
  · obtain ⟨_, -, hfault⟩ := ok_of_bind h
    cases hfault
  · obtain ⟨_, -, hfault⟩ := ok_of_bind h
    cases hfault
  · obtain ⟨_, -, hfault⟩ := ok_of_bind h
    split at hfault <;> cases hfault
  · obtain ⟨_, -, hfault⟩ := ok_of_bind h
    cases hfault
  · cases h
  · cases h
  · split at h
    · obtain ⟨_, -, hfault⟩ := ok_of_bind h
      split at hfault <;> cases hfault
    · cases h

section

variable {α : Type} {reader : Reader α} {t : List Char} {v : α}

theorem reads_atValue (ht : IsValue t)
    (h : ∀ left, Stops left → reader (t ++ left) = .ok (v, left)) : Reads (atValue reader) t v := by
  intro w left hw hleft
  obtain ⟨c, r, rfl, hc⟩ := ht.cons
  have hread := h left hleft
  unfold atValue
  rw [skipSpace_append hw, List.cons_append, skipSpace_cons (not_space_of_startsValue hc)]
  exact hread

theorem of_atValue {s r : List Char} (h : atValue reader s = .ok (v, r)) :
    ∃ w s', Gap w ∧ s = w ++ s' ∧ reader s' = .ok (v, r) := by
  obtain ⟨w, hw, hs⟩ := exists_gap s
  unfold atValue at h
  split at h
  · cases h
  · exact ⟨w, skipSpace s, hw, hs, h⟩

end

theorem reads_readText (expected : String) {v : String} {t : List Char} (h : IsString v t) :
    Reads (readText expected) t v := by
  refine reads_atValue h.isValue ?_
  intro left _
  obtain ⟨b, hb, rfl⟩ := h
  simpa using readString_append hb left

theorem string_of_readText {expected : String} {s r : List Char} {v : String}
    (h : readText expected s = .ok (v, r)) :
    ∃ w t, Gap w ∧ IsString v t ∧ s = w ++ (t ++ r) := by
  obtain ⟨w, s', hw, rfl, hread⟩ := of_atValue h
  split at hread
  · obtain ⟨b, hb, rfl⟩ := spells_of_readString hread
    exact ⟨w, '"' :: (b ++ ['"']), hw, ⟨b, hb, rfl⟩, by simp⟩
  · exact absurd hread (misread_ne_ok _ _ _ _)

theorem of_readRecord {name : String} {fields : List (Field (Reader Json))} {s r : List Char}
    {v : Json} (h : readRecord name fields s = .ok (v, r)) :
    ∃ w s', Gap w ∧
      ((s = w ++ '[' :: s' ∧ readPositional name fields.length fields 0 [] s' = .ok (v, r)) ∨
        (s = w ++ '\x7b' :: s' ∧ readNamed fields s' = .ok (v, r))) := by
  obtain ⟨w, s', hw, rfl, hread⟩ := of_atValue h
  split at hread
  · exact ⟨w, _, hw, Or.inl ⟨rfl, hread⟩⟩
  · exact ⟨w, _, hw, Or.inr ⟨rfl, hread⟩⟩
  · exact absurd hread (misread_ne_ok _ _ _ _)

/-! ## Texts of a shape -/

/-- The text is a value of the shape and stands for the given one. -/
inductive Says : Shape → List Char → Json → Prop where
  | text {v : String} {t : List Char} (h : IsString v t) : Says .text t (.string v)
  | checked {expected : String} {complaint? : String → Option String} {v : String}
      {t : List Char} (h : IsString v t) (hv : complaint? v = none) :
      Says (.checked expected complaint?) t (.string v)
  | flag (b : Bool) : Says .flag (word b) (.bool b)
  | count {n : Nat} (hn : IsWord n) : Says .count (Decimal.digits n) (.int n)
  | null {shape : Shape} : Says (.nullable shape) "null".toList .null
  | some {shape : Shape} {t : List Char} {v : Json} (h : Says shape t v)
      (hnull : t ≠ "null".toList) : Says (.nullable shape) t v
  | list {shape : Shape} {values : List (List Char)} {items : List Json} {t : List Char}
      (ht : IsList values t) (hlength : values.length = items.length)
      (h : ∀ p ∈ values.zip items, Says shape p.1 p.2) : Says (.list shape) t (.array items)
  | pair {shape : Shape} {a b t : List Char} {v w : Json} (ht : IsList [a, b] t)
      (ha : Says shape a v) (hb : Says shape b w) : Says (.pair shape) t (.array [v, w])
  | choice {words : List String} {v : String} {t : List Char} (h : IsString v t)
      (hv : v ∈ words) : Says (.choice words) t (.string v)
  | record {name : String} {fields : List (Field Shape)} {members : List (String × List Char)}
      {pairs arranged : List (String × Json)} {t : List Char} (ht : IsObject members t)
      (hlength : (knownMembers fields members).length = pairs.length)
      (hnames : ∀ p ∈ (knownMembers fields members).zip pairs, p.1.1 = p.2.1)
      (h : ∀ p ∈ (knownMembers fields members).zip pairs, ∀ f,
        fieldNamed? fields p.1.1 = some f → Says f.content p.1.2 p.2.2)
      (hnodup : (pairs.map Prod.fst).Nodup)
      (harrange : List.Forall₂ (fun (f : Field Shape) p => p.1 = f.name ∧ p ∈ pairs) fields
        arranged) :
      Says (.record name fields) t (.object arranged)

theorem Says.isValue {shape : Shape} {t : List Char} {v : Json} (h : Says shape t v) :
    IsValue t := by
  induction h with
  | text h => exact h.isValue
  | checked h _ => exact h.isValue
  | flag b => exact .bool b
  | count _ => exact .number (Or.inl (magnitude_digits _))
  | null => exact .null
  | some _ _ ih => exact ih
  | list ht _ _ _ => exact ht.isValue
  | pair ht _ _ _ _ => exact ht.isValue
  | choice h _ => exact h.isValue
  | record ht _ _ _ _ _ _ => exact ht.isValue

/-! ## Reading -/

theorem fieldNamed?_fieldReaders (fields : List (Field Shape)) (name : String) :
    fieldNamed? (fieldReaders fields) name =
      (fieldNamed? fields name).map fun f => ⟨f.name, f.content.read, f.absence⟩ := by
  induction fields with
  | nil => rfl
  | cons f fields ih =>
      unfold fieldNamed? at ih ⊢
      rw [fieldReaders]
      by_cases hname : f.name = name
      · simp [hname]
      · simp [hname, ih]

theorem knownMembers_fieldReaders (fields : List (Field Shape))
    (members : List (String × List Char)) :
    knownMembers (fieldReaders fields) members = knownMembers fields members := by
  simp [knownMembers, fieldNamed?_fieldReaders]

theorem fieldReaders_eq_map (fields : List (Field Shape)) :
    fieldReaders fields = fields.map fun f => ⟨f.name, f.content.read, f.absence⟩ := by
  induction fields with
  | nil => rfl
  | cons f fields ih => rw [fieldReaders, ih, List.map_cons]

theorem readNullable_null (inner : Reader Json) :
    Reads (readNullable inner) "null".toList .null := by
  intro w left hw _
  have hword := expectWord_append "ull".toList left
  have hspace : skipSpace ("null".toList ++ left) = 'n' :: ("ull".toList ++ left) :=
    skipSpace_cons (by decide) _
  unfold readNullable
  rw [skipSpace_append hw, hspace]
  simp only [hword, ok_bind]

theorem readNullable_some {inner : Reader Json} {t : List Char} {v : Json} (ht : IsValue t)
    (hnull : t ≠ "null".toList) (h : Reads inner t v) : Reads (readNullable inner) t v := by
  intro w left hw hleft
  have hread := h gap_nil hleft
  obtain ⟨c, u, rfl, hc⟩ := ht.cons
  unfold readNullable
  rw [skipSpace_append hw, List.cons_append, skipSpace_cons (not_space_of_startsValue hc)]
  split
  · rename_i heq
    cases heq
    exact absurd ht.eq_null hnull
  · exact hread

theorem reads_readCount {n : Nat} (hn : IsWord n) :
    Reads readCount (Decimal.digits n) (.int n) := by
  refine reads_atValue (.number (Or.inl (magnitude_digits n))) ?_
  intro left hleft
  have hread := readNumber_natural hn hleft
  have hnext := (magnitude_digits n).digitNext left
  obtain ⟨c, u, hs, hc⟩ := (magnitude_digits n).cons
  rw [hs] at hread hnext ⊢
  split
  · rename_i heq
    cases heq
    cases hc
  · simp only [hnext, hread, if_true, ok_bind]

theorem reads_readList {item : Reader Json} {values : List (List Char)} {items : List Json}
    {t : List Char} (ht : IsList values t) (h : List.Forall₂ (Reads item) values items) :
    Reads (readList item) t (.array items) := by
  refine reads_atValue ht.isValue ?_
  intro left _
  obtain ⟨⟨s, rfl, hrun⟩, hvalues⟩ := ht
  exact readItems_run (hrun.append left) hvalues h

theorem reads_readPair {item : Reader Json} {a b t : List Char} {v w : Json}
    (ht : IsList [a, b] t) (ha : Reads item a v) (hb : Reads item b w) :
    Reads (readPair item) t (.array [v, w]) := by
  refine reads_atValue ht.isValue ?_
  intro left _
  obtain ⟨⟨s, rfl, hrun⟩, hvalues⟩ := ht
  have hva := hvalues a (by simp)
  have hvb := hvalues b (by simp)
  obtain ⟨c, r, rfl, hc⟩ := hva.cons
  obtain ⟨d, r', rfl, hd⟩ := hvb.cons
  have hrun' := hrun.append left
  rw [List.cons_append]
  generalize s ++ left = s' at hrun'
  cases hrun' with
  | @item _ _ _ u _ s hu hitem hrest =>
      cases hitem with
      | element =>
          have hfirst := ha gap_nil (hrest.stops (Or.inl rfl))
          cases hrest with
          | @item _ _ _ u' _ s hu' hitem hrest =>
              cases hitem with
              | element =>
                  have hsecond := hb gap_nil (hrest.stops (Or.inl rfl))
                  cases hrest with
                  | @close _ z hz =>
                      simp only [List.nil_append, List.cons_append] at hfirst hsecond ⊢
                      rw [nextItem_lead hu hc, ok_bind]
                      simp only [hfirst, ok_bind]
                      rw [nextItem_lead hu' hd, ok_bind]
                      simp only [hsecond, ok_bind, closeList_close hz]

theorem reads_readChoice {words : List String} {v : String} {t : List Char} (h : IsString v t)
    (hv : v ∈ words) : Reads (readChoice words) t (.string v) := by
  refine reads_atValue h.isValue ?_
  intro left _
  obtain ⟨b, hb, rfl⟩ := h
  simp [readWord, readString_append hb, ok_bind, hv]

theorem Says.reads {shape : Shape} {t : List Char} {v : Json} (h : Says shape t v) :
    Reads shape.read t v := by
  induction h with
  | @text v t h =>
      intro w left hw hleft
      rw [Shape.read]
      simp only [reads_readText _ h hw hleft, ok_bind]
  | checked h hv =>
      intro w left hw hleft
      rw [Shape.read, readChecked]
      simp only [reads_readText _ h hw hleft, ok_bind, hv]
  | flag b =>
      rw [Shape.read]
      refine reads_atValue (.bool b) ?_
      intro left _
      cases b with
      | false =>
          have hword := expectWord_append "alse".toList left
          show (expectWord "alse".toList ("alse".toList ++ left) >>= fun r => _) = _
          rw [hword, ok_bind]
      | true =>
          have hword := expectWord_append "rue".toList left
          show (expectWord "rue".toList ("rue".toList ++ left) >>= fun r => _) = _
          rw [hword, ok_bind]
  | count hn => exact reads_readCount hn
  | null => exact readNullable_null _
  | some h hnull ih => exact readNullable_some h.isValue hnull ih
  | list ht hlength h ih =>
      exact reads_readList ht (List.forall₂_iff_zip.mpr ⟨hlength, fun hp => ih _ hp⟩)
  | pair ht ha hb iha ihb => exact reads_readPair ht iha ihb
  | choice h hv => exact reads_readChoice h hv
  | @record name fields members pairs arranged t ht hlength hnames h hnodup harrange ih =>
      rw [Shape.read]
      refine reads_atValue ht.isValue ?_
      intro left _
      obtain ⟨⟨s, rfl, hrun⟩, hvalues⟩ := ht
      refine readNamed_run (hrun.append left) hvalues ?_ hnodup (arrange_eq ?_)
      · rw [knownMembers_fieldReaders]
        refine List.forall₂_iff_zip.mpr ⟨hlength, ?_⟩
        intro m p hp
        refine ⟨(hnames _ hp).symm, ?_⟩
        have hmem := (List.mem_filter.mp (List.of_mem_zip hp).1).2
        obtain ⟨f, hf⟩ := Option.isSome_iff_exists.mp hmem
        rw [fieldNamed?_fieldReaders, hf]
        exact ⟨_, rfl, ih _ hp f hf⟩
      · rw [fieldReaders_eq_map, List.forall₂_map_left_iff]
        apply harrange.imp
        rintro f p ⟨hname, hp⟩
        refine ⟨hname, ?_⟩
        have hreverse : (pairs.reverse.map Prod.fst).Nodup := by
          rw [List.map_reverse]
          exact List.nodup_reverse.mpr hnodup
        rw [member?_eq_some_iff hreverse, List.mem_reverse, ← hname]
        exact hp

end LogShipper.Json
