import LogShipper.Json.Reader.Shape
import LogShipper.Proofs.Json.Members

/-!
# Fields of records

What a record makes of its members depends on the known ones only, and on these not by their order.
An object of members is read if no known name comes twice and every known one is a value of its
field; an array of values that are all read alike, if there are not more of them than fields.
-/

namespace LogShipper.Json

/-! ## Members by name -/

theorem member?_eq_some_iff {members : List (String × Json)} (h : (members.map Prod.fst).Nodup)
    {name : String} {v : Json} : member? name members = some v ↔ (name, v) ∈ members := by
  induction members with
  | nil => simp [member?]
  | cons m members ih =>
      obtain ⟨k, x⟩ := m
      obtain ⟨hk, hnodup⟩ := List.nodup_cons.mp h
      by_cases hname : k = name
      · subst hname
        have hnot : (k, v) ∉ members := by
          intro hmem
          exact hk (List.mem_map.mpr ⟨(k, v), hmem, rfl⟩)
        simp [member?, hnot, eq_comm]
      · have hrest := ih hnodup
        simp only [member?] at hrest ⊢
        rw [List.find?_cons_of_neg (by simpa using hname), hrest]
        simp [Ne.symm hname]

theorem member?_cons_eq_none_iff {k name : String} {v : Json} {members : List (String × Json)} :
    member? name ((k, v) :: members) = none ↔ k ≠ name ∧ member? name members = none := by
  simp [member?]

/-- What is found by name is the same in any order. -/
theorem member?_perm {members members' : List (String × Json)} (h : members.Perm members')
    (hnodup : (members.map Prod.fst).Nodup) (name : String) :
    member? name members = member? name members' := by
  apply Option.ext
  intro v
  rw [member?_eq_some_iff hnodup, member?_eq_some_iff ((h.map Prod.fst).nodup_iff.mp hnodup),
    h.mem_iff]

/-! ## One member after the other -/

variable {Value : Reader Json → List Char → Json → Prop} {fields : List (Field (Reader Json))}

/-- The field of a name, if it is known. -/
def fieldNamed? {α : Type} (fields : List (Field α)) (name : String) : Option (Field α) :=
  fields.find? (·.name = name)

/-- A member changes what is given: a known one that was not given before is put in front, where
`Value` tells what its text is, and an unknown one is passed over. -/
inductive Gives (Value : Reader Json → List Char → Json → Prop)
    (fields : List (Field (Reader Json))) :
    List (String × Json) → String × List Char → List (String × Json) → Prop where
  | unknown {given : List (String × Json)} {m : String × List Char}
      (h : fieldNamed? fields m.1 = none) : Gives Value fields given m given
  | known {given : List (String × Json)} {m : String × List Char} {f : Field (Reader Json)}
      {v : Json} (h : fieldNamed? fields m.1 = some f) (hnew : member? m.1 given = none)
      (hv : Value f.content m.2 v) : Gives Value fields given m ((m.1, v) :: given)

/-- The member is of a field, and this is its value. -/
def Known (Value : Reader Json → List Char → Json → Prop) (fields : List (Field (Reader Json)))
    (m : String × List Char) (p : String × Json) : Prop :=
  p.1 = m.1 ∧ ∃ f, fieldNamed? fields m.1 = some f ∧ Value f.content m.2 p.2

/-- The members that have a field. -/
def knownMembers {α : Type} (fields : List (Field α)) (members : List (String × List Char)) :
    List (String × List Char) :=
  members.filter fun m => (fieldNamed? fields m.1).isSome

section

variable {given given' : List (String × Json)} {m : String × List Char}
  {members : List (String × List Char)}

theorem chain_gives_unknown (h : fieldNamed? fields m.1 = none) :
    Chain (Gives Value fields) given (m :: members) given' ↔
      Chain (Gives Value fields) given members given' := by
  constructor
  · intro hchain
    cases hchain with
    | cons hstep hrest =>
        cases hstep with
        | unknown _ => exact hrest
        | known hf _ _ =>
            rw [h] at hf
            cases hf
  · intro hchain
    exact .cons (.unknown h) hchain

theorem chain_gives_known {f : Field (Reader Json)} (h : fieldNamed? fields m.1 = some f) :
    Chain (Gives Value fields) given (m :: members) given' ↔
      ∃ v, Value f.content m.2 v ∧ member? m.1 given = none ∧
        Chain (Gives Value fields) ((m.1, v) :: given) members given' := by
  constructor
  · intro hchain
    cases hchain with
    | cons hstep hrest =>
        cases hstep with
        | unknown hnone =>
            rw [h] at hnone
            cases hnone
        | known hf hnew hv =>
            rw [h] at hf
            cases hf
            exact ⟨_, hv, hnew, hrest⟩
  · rintro ⟨v, hv, hnew, hchain⟩
    exact .cons (.known h hnew hv) hchain

theorem chain_gives_iff :
    Chain (Gives Value fields) given members given' ↔
      ∃ pairs, List.Forall₂ (Known Value fields) (knownMembers fields members) pairs ∧
        (pairs.map Prod.fst).Nodup ∧ (∀ p ∈ pairs, member? p.1 given = none) ∧
        given' = pairs.reverse ++ given := by
  induction members generalizing given with
  | nil =>
      constructor
      · intro h
        cases h
        exact ⟨[], .nil, List.nodup_nil, by simp, rfl⟩
      · rintro ⟨pairs, hpairs, -, -, rfl⟩
        cases hpairs
        exact .nil
  | cons m members ih =>
      -- What is given grows at the front, so that the pairs stand in it in reverse.
      cases hfield : fieldNamed? fields m.1 with
      | none =>
          have hfilter : knownMembers fields (m :: members) = knownMembers fields members :=
            List.filter_cons_of_neg (by simp [hfield])
          rw [hfilter, chain_gives_unknown hfield, ih]
      | some f =>
          have hfilter : knownMembers fields (m :: members) = m :: knownMembers fields members :=
            List.filter_cons_of_pos (by simp [hfield])
          rw [hfilter, chain_gives_known hfield]
          constructor
          · rintro ⟨v, hv, hnew, hchain⟩
            obtain ⟨pairs, hpairs, hnodup, hfresh, rfl⟩ := ih.mp hchain
            have hname : ∀ p ∈ pairs, m.1 ≠ p.1 ∧ member? p.1 given = none := by
              intro p hp
              exact member?_cons_eq_none_iff.mp (hfresh p hp)
            refine ⟨(m.1, v) :: pairs, .cons ⟨rfl, f, hfield, hv⟩ hpairs, ?_, ?_, by simp⟩
            · refine List.nodup_cons.mpr ⟨?_, hnodup⟩
              intro hmem
              obtain ⟨p, hp, heq⟩ := List.mem_map.mp hmem
              exact (hname p hp).1 heq.symm
            · exact List.forall_mem_cons.mpr ⟨hnew, fun p hp => (hname p hp).2⟩
          · rintro ⟨pairs, hpairs, hnodup, hfresh, rfl⟩
            cases hpairs with
            | @cons _ p _ pairs hknown hpairs =>
                obtain ⟨hp, f', hf', hv⟩ := hknown
                obtain ⟨k, v⟩ := p
                obtain rfl : k = m.1 := hp
                obtain rfl : f = f' := Option.some.inj (hfield.symm.trans hf')
                obtain ⟨hnot, hnodup⟩ := List.nodup_cons.mp hnodup
                obtain ⟨hnew, hfresh⟩ := List.forall_mem_cons.mp hfresh
                refine ⟨v, hv, hnew, ih.mpr ⟨pairs, hpairs, hnodup, ?_, by simp⟩⟩
                intro q hq
                have hne : m.1 ≠ q.1 := by
                  intro heq
                  exact hnot (heq ▸ List.mem_map_of_mem hq)
                exact member?_cons_eq_none_iff.mpr ⟨hne, hfresh q hq⟩

end

theorem readsBehindName_readMember {given given' : List (String × Json)} {m : String × List Char}
    (h : Gives Reads fields given m given') (hvalue : IsValue m.2) :
    ReadsBehindName (readMember fields given m.1) m.2 given' := by
  intro u w left hu hw hleft
  cases h with
  | unknown hfield =>
      have hfind : fields.find? (·.name = m.1) = none := hfield
      simp only [readMember, hfind, expectColon_append hu, ok_bind,
        skipValue_append hvalue hw hleft]
  | known hfield hnew hread =>
      have hfind : fields.find? (·.name = m.1) = some _ := hfield
      simp only [readMember, hfind, hnew, expectColon_append hu, ok_bind, hread hw hleft,
        Option.isSome_none, Bool.false_eq_true, if_false]

/-- A reader takes nothing but blanks and a value that is one in the sense of `Value`. -/
def Sound (Value : Reader Json → List Char → Json → Prop) (reader : Reader Json) : Prop :=
  ∀ ⦃s r : List Char⦄ ⦃v : Json⦄, reader s = .ok (v, r) →
    ∃ w t, Gap w ∧ IsValue t ∧ s = w ++ (t ++ r) ∧ Value reader t v

theorem gives_of_readMember (hfields : ∀ f ∈ fields, Sound Value f.content)
    ⦃given given' : List (String × Json)⦄ ⦃name : String⦄ ⦃r r' : List Char⦄
    (h : readMember fields given name r = .ok (given', r')) :
    ∃ v w t, Gap v ∧ Gap w ∧ IsValue t ∧ r = v ++ ':' :: (w ++ (t ++ r')) ∧
      Gives Value fields given (name, t) given' := by
  unfold readMember at h
  split at h
  · rename_i f hfind
    split at h
    · cases h
    rename_i hnew
    obtain ⟨r₁, hcolon, hvalue⟩ := ok_of_bind h
    obtain ⟨v, hv, rfl⟩ := colon_of_expectColon hcolon
    obtain ⟨⟨x, r₂⟩, hread, hlast⟩ := ok_of_bind hvalue
    cases hlast
    obtain ⟨w, t, hw, ht, rfl, hx⟩ := hfields f (List.mem_of_find?_eq_some hfind) hread
    exact ⟨v, w, t, hv, hw, ht, rfl, .known hfind (by simpa using hnew) hx⟩
  · rename_i hfind
    obtain ⟨r₁, hcolon, hvalue⟩ := ok_of_bind h
    obtain ⟨v, hv, rfl⟩ := colon_of_expectColon hcolon
    obtain ⟨r₂, hskip, hlast⟩ := ok_of_bind hvalue
    cases hlast
    obtain ⟨w, t, hw, ht, rfl⟩ := value_of_skipValue hskip
    exact ⟨v, w, t, hv, hw, ht, rfl, .unknown hfind⟩

/-! ## Fields in order -/

theorem arrange_eq {given : List (String × Json)} {members : List (String × Json)}
    (h : List.Forall₂ (fun (f : Field (Reader Json)) p =>
      p.1 = f.name ∧ member? f.name given = some p.2) fields members) :
    arrange given fields = .ok members := by
  induction h with
  | nil => rfl
  | @cons f p fields members hp _ ih =>
      obtain ⟨hname, hvalue⟩ := hp
      rw [arrange]
      simp only [hvalue, ih, ok_bind]
      rw [← hname]

theorem arrange_omitted (given : List (String × Json))
    (h : ∀ f ∈ fields, f.absence = .omitted) :
    arrange given fields =
      .ok (fields.filterMap fun f => (member? f.name given).map fun v => (f.name, v)) := by
  induction fields with
  | nil => rfl
  | cons f fields ih =>
      obtain ⟨hf, hfields⟩ := List.forall_mem_cons.mp h
      rw [arrange]
      cases hvalue : member? f.name given with
      | none =>
          simp only [hf, ih hfields]
          simp [hvalue]
      | some v =>
          simp only [ih hfields, ok_bind]
          simp [hvalue]

/-- Of what is given nothing is lost that has a field. -/
theorem member?_filterMap (given : List (String × Json)) {name : String}
    (h : name ∈ fields.map Field.name) :
    member? name (fields.filterMap fun f => (member? f.name given).map fun v => (f.name, v)) =
      member? name given := by
  induction fields with
  | nil => cases h
  | cons f fields ih =>
      by_cases hname : f.name = name
      · cases hvalue : member? name given with
        | some v =>
            rw [List.filterMap_cons_some (by rw [hname, hvalue]; rfl)]
            simp [member?]
        | none =>
            rw [member?, Option.map_eq_none_iff, List.find?_eq_none]
            intro p hp heq
            obtain ⟨g, -, hg⟩ := List.mem_filterMap.mp hp
            obtain ⟨v, hv, rfl⟩ := Option.map_eq_some_iff.mp hg
            rw [show g.name = name by simpa using heq, hvalue] at hv
            cases hv
      · have hrest := ih (by simpa [Ne.symm hname] using h)
        cases hvalue : member? f.name given with
        | none => simpa [hvalue] using hrest
        | some v =>
            rw [List.filterMap_cons_some (by rw [hvalue]; rfl), ← hrest]
            simp [member?, hname]

/-! ## Whole records -/

section

variable {left s : List Char}

theorem readNamed_run {members : List (String × List Char)}
    (h : Run '\x7d' Member left true members s) (hvalues : ∀ m ∈ members, IsValue m.2)
    {pairs : List (String × Json)}
    (hpairs : List.Forall₂ (Known Reads fields) (knownMembers fields members) pairs)
    (hnodup : (pairs.map Prod.fst).Nodup) {arranged : List (String × Json)}
    (harrange : arrange pairs.reverse fields = .ok arranged) :
    readNamed fields s = .ok (.object arranged, left) := by
  have hgives : Chain (Gives Reads fields) [] members (pairs.reverse ++ []) :=
    chain_gives_iff.mpr ⟨pairs, hpairs, hnodup, fun _ _ => rfl, rfl⟩
  rw [List.append_nil] at hgives
  have hchain : Chain (fun given m given' =>
      ReadsBehindName (readMember fields given m.1) m.2 given') [] members pairs.reverse := by
    apply hgives.imp
    intro given given' m hm hstep
    exact readsBehindName_readMember hstep (hvalues m hm)
  unfold readNamed
  rw [foldMembers_run h hchain (Nat.le_refl _), ok_bind]
  simp only [harrange]

theorem run_of_readNamed (hfields : ∀ f ∈ fields, Sound Value f.content) {v : Json}
    (h : readNamed fields s = .ok (v, left)) :
    ∃ members pairs arranged, Run '\x7d' Member left true members s ∧
      (∀ m ∈ members, IsValue m.2) ∧
      List.Forall₂ (Known Value fields) (knownMembers fields members) pairs ∧
      (pairs.map Prod.fst).Nodup ∧ arrange pairs.reverse fields = .ok arranged ∧
      v = .object arranged := by
  unfold readNamed at h
  obtain ⟨⟨given, r⟩, hfold, hnext⟩ := ok_of_bind h
  obtain ⟨members, hrun, hvalues, hchain⟩ := run_of_foldMembers (gives_of_readMember hfields) hfold
  obtain ⟨pairs, hpairs, hnodup, -, rfl⟩ := chain_gives_iff.mp hchain
  rw [List.append_nil] at hnext
  dsimp only at hnext
  split at hnext
  · rename_i arranged harrange
    cases hnext
    exact ⟨members, pairs, arranged, hrun, hvalues, hpairs, hnodup, harrange, rfl⟩
  · cases hnext

/-- The array form of a record whose fields may all be left out and are all read alike. -/
theorem readPositional_run {item : Reader Json}
    (hfields : ∀ f ∈ fields, f.content = item ∧ f.absence = .omitted) (name : String) (size : Nat)
    {first : Bool} {values : List (List Char)}
    (h : Run ']' (Bracket.Item .list) left first values s) (hvalues : ∀ t ∈ values, IsValue t)
    {items : List Json} (hitems : List.Forall₂ (Reads item) values items)
    (hlength : values.length ≤ fields.length) {count : Nat} (hcount : (count == 0) = first)
    (done : List (String × Json)) :
    readPositional name size fields count done s =
      .ok (.object (done.reverse ++ (fields.map Field.name).zip items), left) := by
  -- Of the count it only matters here whether it is zero: then no comma stands before the item.
  induction fields generalizing first values items count done s with
  | nil =>
      cases h with
      | close hw =>
          cases hitems
          rw [readPositional, closeList_close hw, ok_bind]
          simp
      | item _ _ _ => simp at hlength
  | cons f fields ih =>
      have hall := hfields
      obtain ⟨⟨hcontent, -⟩, hfields⟩ := List.forall_mem_cons.mp hfields
      rw [readPositional, hcount]
      cases h with
      | close hw =>
          cases hitems
          have homitted : ((f :: fields).all fun g => decide (g.absence = .omitted)) = true := by
            rw [List.all_eq_true]
            intro g hg
            simpa using (hall g hg).2
          rw [nextItem_close first hw, ok_bind]
          simp only [homitted]
          simp
      | @item _ value values u t s hu ht hrest =>
          cases ht with
          | element =>
              cases hitems with
              | @cons _ v _ items hread hitems =>
                  obtain ⟨hvalue, hmore⟩ := List.forall_mem_cons.mp hvalues
                  have hitem := hread gap_nil (hrest.stops (Or.inl rfl))
                  have hnot : (count + 1 == 0) = false := beq_false_of_ne (Nat.succ_ne_zero count)
                  obtain ⟨c, r, rfl, hc⟩ := hvalue.cons
                  rw [List.nil_append, List.cons_append] at hitem
                  rw [List.cons_append, nextItem_lead hu hc, ok_bind]
                  simp only [hcontent, hitem, ok_bind]
                  rw [ih hfields hrest hmore hitems (by simpa using hlength) hnot]
                  simp

theorem run_of_readPositional {item : Reader Json} (hitem : Sound Value item)
    (hfields : ∀ f ∈ fields, f.content = item) (name : String) (size : Nat) {count : Nat}
    {done : List (String × Json)} {v : Json}
    (h : readPositional name size fields count done s = .ok (v, left)) :
    ∃ values items, Run ']' (Bracket.Item .list) left (count == 0) values s ∧
      (∀ t ∈ values, IsValue t) ∧ List.Forall₂ (Value item) values items ∧
      values.length ≤ fields.length ∧
      v = .object (done.reverse ++ (fields.map Field.name).zip items) := by
  induction fields generalizing count done s with
  | nil =>
      rw [readPositional] at h
      obtain ⟨r, hclose, hlast⟩ := ok_of_bind h
      cases hlast
      obtain ⟨w, hw, rfl⟩ := close_of_closeList hclose
      exact ⟨[], [], .close hw, by simp, .nil, Nat.le_refl _, by simp⟩
  | cons f fields ih =>
      obtain ⟨hcontent, hfields⟩ := List.forall_mem_cons.mp hfields
      rw [readPositional] at h
      obtain ⟨next, hnext, hgo⟩ := ok_of_bind h
      cases next with
      | close r =>
          obtain ⟨w, hw, rfl⟩ := close_of_nextItem hnext
          dsimp only at hgo
          split at hgo
          · cases hgo
            exact ⟨[], [], .close hw, by simp, .nil, Nat.zero_le _, by simp⟩
          · cases hgo
      | part r =>
          obtain ⟨u, hu, rfl⟩ := lead_of_nextItem hnext
          obtain ⟨⟨x, r₁⟩, hread, hmore⟩ := ok_of_bind hgo
          rw [hcontent] at hread
          obtain ⟨w, t, hw, ht, rfl, hx⟩ := hitem hread
          obtain ⟨values, items, hrun, hvalues, hitems, hlength, rfl⟩ := ih hfields hmore
          refine ⟨t :: values, x :: items, ?_, List.forall_mem_cons.mpr ⟨ht, hvalues⟩,
            .cons hx hitems, by simpa using hlength, by simp⟩
          have hlead : Lead (count == 0) (u ++ w) := hu.append hw
          simpa using Run.item hlead .element hrun

end

end LogShipper.Json
