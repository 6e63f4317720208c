import LogShipper.Json.Canonical
import LogShipper.Proofs.Json.Printing
import Mathlib.Data.List.Perm.Basic

/-!
# The canonical form

`Same v w` says that two values differ in the order of members only, at any depth. Sorting picks one
value of each such class, and its compact text, which can be read back, is the same for two values
if and only if they are the same.
-/

namespace LogShipper.Json

/-! ## Equal up to the order of members -/

/-- The values differ in the order of members only. -/
inductive Same : Json → Json → Prop where
  | null : Same .null .null
  | bool (b : Bool) : Same (.bool b) (.bool b)
  | int (n : Int) : Same (.int n) (.int n)
  | real (x : Decimal.Binary64) : Same (.real x) (.real x)
  | string (s : String) : Same (.string s) (.string s)
  | array {items items' : List Json} (hlength : items.length = items'.length)
      (h : ∀ p ∈ items.zip items', Same p.1 p.2) : Same (.array items) (.array items')
  | object {members reordered members' : List (String × Json)} (hperm : members.Perm reordered)
      (hnames : reordered.map Prod.fst = members'.map Prod.fst)
      (h : ∀ p ∈ reordered.zip members', Same p.1.2 p.2.2) :
      Same (.object members) (.object members')

/-- No object has a name twice. -/
inductive Distinct : Json → Prop where
  | null : Distinct .null
  | bool (b : Bool) : Distinct (.bool b)
  | int (n : Int) : Distinct (.int n)
  | real (x : Decimal.Binary64) : Distinct (.real x)
  | string (s : String) : Distinct (.string s)
  | array {items : List Json} (h : ∀ v ∈ items, Distinct v) : Distinct (.array items)
  | object {members : List (String × Json)} (hnodup : (members.map Prod.fst).Nodup)
      (h : ∀ m ∈ members, Distinct m.2) : Distinct (.object members)

/-- In every object the names ascend strictly by their bytes. -/
inductive Ascending : Json → Prop where
  | null : Ascending .null
  | bool (b : Bool) : Ascending (.bool b)
  | int (n : Int) : Ascending (.int n)
  | real (x : Decimal.Binary64) : Ascending (.real x)
  | string (s : String) : Ascending (.string s)
  | array {items : List Json} (h : ∀ v ∈ items, Ascending v) : Ascending (.array items)
  | object {members : List (String × Json)}
      (hnames : members.Pairwise fun m n => nameBytes m.1 < nameBytes n.1)
      (h : ∀ m ∈ members, Ascending m.2) : Ascending (.object members)

/-! ## Names -/

theorem nameBytes_injective {a b : String} (h : nameBytes a = nameBytes b) : a = b := by
  have hbytes : a.toUTF8 = b.toUTF8 := ByteArray.ext (Array.toList_inj.mp h)
  exact String.toByteArray_inj.mp hbytes

theorem nameBytes_lt_of_not {a b : String} (hne : a ≠ b) (h : ¬ nameBytes a < nameBytes b) :
    nameBytes b < nameBytes a := by
  by_contra hnot
  exact hne (nameBytes_injective (List.le_antisymm (List.not_lt.mp hnot) (List.not_lt.mp h)))

/-! ## Putting members in -/

theorem mem_insertMember {k : String} {v : Json} {members : List (String × Json)}
    {m : String × Json} (h : m ∈ insertMember k v members) : m = (k, v) ∨ m ∈ members := by
  induction members with
  | nil => exact Or.inl (List.mem_singleton.mp h)
  | cons n members ih =>
      obtain ⟨k', v'⟩ := n
      rw [insertMember] at h
      split at h
      · rcases List.mem_cons.mp h with h | h
        · exact Or.inl h
        · exact Or.inr (List.mem_cons_of_mem _ h)
      split at h
      · exact List.mem_cons.mp h
      · rcases List.mem_cons.mp h with rfl | h
        · exact Or.inr List.mem_cons_self
        · exact (ih h).imp_right (List.mem_cons_of_mem _)

theorem pairwise_insertMember (k : String) (v : Json) {members : List (String × Json)}
    (h : members.Pairwise fun m n => nameBytes m.1 < nameBytes n.1) :
    (insertMember k v members).Pairwise fun m n => nameBytes m.1 < nameBytes n.1 := by
  induction members with
  | nil => exact List.pairwise_singleton _ _
  | cons n members ih =>
      obtain ⟨k', v'⟩ := n
      obtain ⟨hfirst, hmembers⟩ := List.pairwise_cons.mp h
      rw [insertMember]
      split
      · rename_i heq
        subst heq
        exact List.pairwise_cons.mpr ⟨hfirst, hmembers⟩
      rename_i hne
      split
      · rename_i hbefore
        have hlt : nameBytes k < nameBytes k' := of_decide_eq_true hbefore
        refine List.pairwise_cons.mpr ⟨?_, h⟩
        intro m hm
        rcases List.mem_cons.mp hm with rfl | hm
        · exact hlt
        · exact List.lt_trans hlt (hfirst m hm)
      · rename_i hbefore
        have hlt : nameBytes k' < nameBytes k :=
          nameBytes_lt_of_not hne fun h => hbefore (decide_eq_true h)
        refine List.pairwise_cons.mpr ⟨?_, ih hmembers⟩
        intro m hm
        rcases mem_insertMember hm with rfl | hm
        · exact hlt
        · exact hfirst m hm

theorem insertMember_perm {k : String} {v : Json} {members : List (String × Json)}
    (h : k ∉ members.map Prod.fst) : (insertMember k v members).Perm ((k, v) :: members) := by
  induction members with
  | nil => exact .refl _
  | cons n members ih =>
      obtain ⟨k', v'⟩ := n
      rw [List.map_cons, List.mem_cons, not_or] at h
      rw [insertMember, if_neg h.1]
      split
      · exact .refl _
      · exact ((ih h.2).cons _).trans (.swap _ _ _)

/-! ## Sorting -/

/-- A member with its value sorted. -/
def sortedMember (m : String × Json) : String × Json :=
  (m.1, m.2.sorted)

theorem sortedItems_eq_map (items : List Json) : sortedItems items = items.map sorted := by
  induction items with
  | nil => rfl
  | cons v items ih => rw [sortedItems, ih, List.map_cons]

theorem map_fst_sortedMember (members : List (String × Json)) :
    (members.map sortedMember).map Prod.fst = members.map Prod.fst := by
  rw [List.map_map]
  rfl

theorem mem_sortedMembers {m : String × Json} {done members : List (String × Json)}
    (h : m ∈ sortedMembers done members) : m ∈ done ∨ m ∈ members.map sortedMember := by
  induction members generalizing done with
  | nil => exact Or.inl h
  | cons n members ih =>
      rw [sortedMembers] at h
      rcases ih h with h | h
      · rcases mem_insertMember h with rfl | h
        · exact Or.inr List.mem_cons_self
        · exact Or.inl h
      · exact Or.inr (List.mem_cons_of_mem _ h)

theorem pairwise_sortedMembers {done : List (String × Json)} (members : List (String × Json))
    (h : done.Pairwise fun m n => nameBytes m.1 < nameBytes n.1) :
    (sortedMembers done members).Pairwise fun m n => nameBytes m.1 < nameBytes n.1 := by
  induction members generalizing done with
  | nil => exact h
  | cons n members ih => exact ih (pairwise_insertMember n.1 n.2.sorted h)

theorem sortedMembers_perm {done members : List (String × Json)}
    (h : (members.map Prod.fst ++ done.map Prod.fst).Nodup) :
    (sortedMembers done members).Perm (members.map sortedMember ++ done) := by
  induction members generalizing done with
  | nil => exact .refl _
  | cons n members ih =>
      obtain ⟨k, v⟩ := n
      rw [List.map_cons, List.cons_append, List.nodup_cons, List.mem_append, not_or] at h
      have hinsert : (insertMember k v.sorted done).Perm ((k, v.sorted) :: done) :=
        insertMember_perm h.1.2
      have hnames : (members.map Prod.fst ++
          (insertMember k v.sorted done).map Prod.fst).Perm
          (k :: (members.map Prod.fst ++ done.map Prod.fst)) :=
        ((hinsert.map Prod.fst).append_left _).trans List.perm_middle
      have hnodup := hnames.nodup_iff.mpr
        (List.nodup_cons.mpr ⟨fun hk => (List.mem_append.mp hk).elim h.1.1 h.1.2, h.2⟩)
      exact (ih hnodup).trans ((hinsert.append_left _).trans List.perm_middle)

theorem sortedMembers_nil_perm {members : List (String × Json)}
    (h : (members.map Prod.fst).Nodup) :
    (sortedMembers [] members).Perm (members.map sortedMember) := by
  have hnodup : (members.map Prod.fst ++ ([] : List (String × Json)).map Prod.fst).Nodup := by
    simpa using h
  simpa using sortedMembers_perm hnodup

/-- Two lists of members with ascending names and the same members are one. -/
theorem eq_of_pairwise {members members' : List (String × Json)}
    (h : members.Pairwise fun m n => nameBytes m.1 < nameBytes n.1)
    (h' : members'.Pairwise fun m n => nameBytes m.1 < nameBytes n.1)
    (hperm : members.Perm members') : members = members' := by
  refine hperm.eq_of_pairwise ?_ h h'
  intro m n _ _ hmn hnm
  exact absurd hnm (List.lt_asymm hmn)

theorem sortedMembers_congr {members members' : List (String × Json)}
    (h : (members.map Prod.fst).Nodup)
    (hperm : (members.map sortedMember).Perm (members'.map sortedMember)) :
    sortedMembers [] members = sortedMembers [] members' := by
  have hnames := hperm.map Prod.fst
  rw [map_fst_sortedMember, map_fst_sortedMember] at hnames
  refine eq_of_pairwise (pairwise_sortedMembers members .nil)
    (pairwise_sortedMembers members' .nil) ?_
  exact (sortedMembers_nil_perm h).trans
    (hperm.trans (sortedMembers_nil_perm (hnames.nodup_iff.mp h)).symm)

theorem ascending_sorted (v : Json) : Ascending v.sorted := by
  induction v using induct with
  | null => exact .null
  | bool b => exact .bool b
  | int n => exact .int n
  | real x => exact .real x
  | string s => exact .string s
  | array items ih =>
      rw [sorted, sortedItems_eq_map]
      exact .array (List.forall_mem_map.mpr ih)
  | object members ih =>
      refine .object (pairwise_sortedMembers members .nil) ?_
      intro m hm
      rcases mem_sortedMembers hm with hm | hm
      · cases hm
      · obtain ⟨n, hn, rfl⟩ := List.mem_map.mp hm
        exact ih n hn

theorem Regular.distinct {depth : Nat} {v : Json} (h : Regular depth v) : Distinct v := by
  induction h with
  | null => exact .null
  | bool b => exact .bool b
  | int _ => exact .int _
  | string s => exact .string s
  | array _ ih => exact .array ih
  | object hnodup _ ih => exact .object hnodup ih

theorem Ascending.distinct {v : Json} (h : Ascending v) : Distinct v := by
  induction h with
  | null => exact .null
  | bool b => exact .bool b
  | int n => exact .int n
  | real x => exact .real x
  | string s => exact .string s
  | array _ ih => exact .array ih
  | object hnames _ ih =>
      refine .object (List.pairwise_map.mpr (hnames.imp ?_)) ih
      intro m n hlt heq
      rw [heq] at hlt
      exact List.lt_irrefl _ hlt

theorem Regular.sorted {depth : Nat} {v : Json} (h : Regular depth v) : Regular depth v.sorted := by
  induction h with
  | null => exact .null
  | bool b => exact .bool b
  | int hn => exact .int hn
  | string s => exact .string s
  | array _ ih =>
      rw [Json.sorted, sortedItems_eq_map]
      exact .array (List.forall_mem_map.mpr ih)
  | @object _ members hnodup _ ih =>
      have hperm := sortedMembers_nil_perm hnodup
      refine .object ?_ ?_
      · rw [(hperm.map Prod.fst).nodup_iff, map_fst_sortedMember]
        exact hnodup
      · intro m hm
        obtain ⟨n, hn, rfl⟩ := List.mem_map.mp (hperm.mem_iff.mp hm)
        exact ih n hn

theorem Distinct.sorted_sorted {v : Json} (h : Distinct v) : v.sorted.sorted = v.sorted := by
  induction h with
  | null => rfl
  | bool b => rfl
  | int n => rfl
  | real x => rfl
  | string s => rfl
  | @array items _ ih =>
      rw [Json.sorted, sortedItems_eq_map, Json.sorted, sortedItems_eq_map, List.map_map]
      exact congrArg Json.array (List.map_congr_left ih)
  | @object members hnodup _ ih =>
      have hperm := sortedMembers_nil_perm hnodup
      have hagain : (members.map sortedMember).map sortedMember = members.map sortedMember := by
        rw [List.map_map]
        refine List.map_congr_left fun m hm => ?_
        rw [Function.comp_apply, sortedMember, sortedMember, ih m hm]
      have hnodup' : ((sortedMembers [] members).map Prod.fst).Nodup := by
        rw [(hperm.map Prod.fst).nodup_iff, map_fst_sortedMember]
        exact hnodup
      have htwice :
          (sortedMembers [] (sortedMembers [] members)).Perm (sortedMembers [] members) := by
        refine (sortedMembers_nil_perm hnodup').trans ((hperm.map sortedMember).trans ?_)
        rw [hagain]
        exact hperm.symm
      exact congrArg Json.object (eq_of_pairwise (pairwise_sortedMembers _ .nil)
        (pairwise_sortedMembers _ .nil) htwice)

/-! ## Sorting finds what is the same -/

theorem forall₂_iff_map_eq {α β : Type} {f : α → β} {xs ys : List α} :
    List.Forall₂ (fun x y => f x = f y) xs ys ↔ xs.map f = ys.map f := by
  rw [← List.forall₂_eq_eq_eq, List.forall₂_map_left_iff, List.forall₂_map_right_iff]

theorem Same.sorted_eq {v w : Json} (h : Same v w) : Distinct v → v.sorted = w.sorted := by
  induction h with
  | null => exact fun _ => rfl
  | bool b => exact fun _ => rfl
  | int n => exact fun _ => rfl
  | real x => exact fun _ => rfl
  | string s => exact fun _ => rfl
  | @array items items' hlength _ ih =>
      intro hv
      cases hv with
      | array hitems =>
          rw [sorted, sorted, sortedItems_eq_map, sortedItems_eq_map]
          refine congrArg Json.array (forall₂_iff_map_eq.mp ?_)
          refine List.forall₂_iff_zip.mpr ⟨hlength, fun {v w} hp => ?_⟩
          exact ih _ hp (hitems v (List.of_mem_zip hp).1)
  | @object members reordered members' hperm hnames _ ih =>
      intro hv
      cases hv with
      | object hnodup hmembers =>
          have hpairs := forall₂_iff_map_eq.mpr hnames
          have hmap : reordered.map sortedMember = members'.map sortedMember := by
            refine forall₂_iff_map_eq.mp (List.forall₂_iff_zip.mpr ⟨hpairs.length_eq, ?_⟩)
            intro m n (hp : (m, n) ∈ reordered.zip members')
            have hm := hmembers m (hperm.mem_iff.mpr (List.of_mem_zip hp).1)
            have hname : m.1 = n.1 := List.forall₂_zip hpairs hp
            exact Prod.ext hname (ih _ hp hm)
          refine congrArg Json.object (sortedMembers_congr hnodup ?_)
          exact hmap ▸ hperm.map sortedMember

theorem Distinct.same_of_sorted_eq {v : Json} (hv : Distinct v) :
    ∀ {w : Json}, Distinct w → v.sorted = w.sorted → Same v w := by
  induction hv with
  | null =>
      intro w hw h
      cases hw <;> cases h
      exact .null
  | bool b =>
      intro w hw h
      cases hw <;> cases h
      exact .bool b
  | int n =>
      intro w hw h
      cases hw <;> cases h
      exact .int n
  | real x =>
      intro w hw h
      cases hw <;> cases h
      exact .real x
  | string s =>
      intro w hw h
      cases hw <;> cases h
      exact .string s
  | @array items hitems ih =>
      intro w hw h
      cases hw with
      | @array items' hitems' =>
          rw [sorted, sorted, sortedItems_eq_map, sortedItems_eq_map] at h
          have hpairs := forall₂_iff_map_eq.mpr (Json.array.inj h)
          refine .array hpairs.length_eq ?_
          rintro ⟨v, w⟩ hp
          obtain ⟨hv, hw⟩ := List.of_mem_zip hp
          exact ih v hv (hitems' w hw) (List.forall₂_zip hpairs hp)
      | _ => cases h
  | @object members hnodup hmembers ih =>
      intro w hw h
      cases hw with
      | @object members' hnodup' hmembers' =>
          have hperm : (members'.map sortedMember).Perm (members.map sortedMember) := by
            refine (sortedMembers_nil_perm hnodup').symm.trans ?_
            rw [← Json.object.inj h]
            exact sortedMembers_nil_perm hnodup
          -- Members of `members'` may be matched with those of `members` before they are sorted.
          have hcomp : Relation.Comp (fun l l' => l = List.map sortedMember l') List.Perm
              (members'.map sortedMember) members := by
            rw [List.eq_map_comp_perm]
            exact hperm
          obtain ⟨reordered, heq, hreordered⟩ := hcomp
          have hpairs := forall₂_iff_map_eq.mpr heq.symm
          refine .object hreordered.symm ?_ ?_
          · rw [← map_fst_sortedMember, ← heq, map_fst_sortedMember]
          · rintro ⟨m, n⟩ hp
            obtain ⟨hm, hn⟩ := List.of_mem_zip hp
            have hsorted := congrArg Prod.snd (List.forall₂_zip hpairs hp)
            exact ih m (hreordered.mem_iff.mp hm) (hmembers' n hn) hsorted
      | _ => cases h

theorem Distinct.same_iff {v w : Json} (hv : Distinct v) (hw : Distinct w) :
    Same v w ↔ v.sorted = w.sorted :=
  ⟨fun h => h.sorted_eq hv, hv.same_of_sorted_eq hw⟩

theorem Distinct.same_sorted {v : Json} (h : Distinct v) : Same v v.sorted :=
  (h.same_iff (ascending_sorted v).distinct).mpr h.sorted_sorted.symm

/-- What the canonical text of a value is good for. -/
structure CanonicalForm (v : Json) : Prop where
  /-- It is the compact text of a value with the names of every object in ascending order, and is
  read as that value, which is `v` up to the order of members and has the same canonical text. -/
  parsed : ∃ w, parse v.canonical = .ok w ∧ Same v w ∧ Ascending w ∧ v.canonical = w.compact ∧
    w.canonical = v.canonical
  /-- No blank stands outside strings. -/
  tight : tight .outside v.canonical.toList = true
  /-- No other value has the same text. -/
  unique : ∀ w, Regular 127 w → (v.canonical = w.canonical ↔ Same v w)

theorem canonicalForm {v : Json} (hv : Regular 127 v) : CanonicalForm v where
  parsed := by
    refine ⟨v.sorted, parse_compact hv.sorted, hv.distinct.same_sorted, ascending_sorted v, rfl, ?_⟩
    rw [canonical, canonical, hv.distinct.sorted_sorted]
  tight := by
    have htight := hv.sorted.tight []
    rw [canonical, compact, String.toList_ofList]
    simpa [Json.tight] using htight
  unique w hw := by
    rw [hv.distinct.same_iff hw.distinct]
    constructor
    · intro h
      have hcompact : v.sorted.compact = w.sorted.compact := h
      have hparse := parse_compact hv.sorted
      rw [hcompact, parse_compact hw.sorted] at hparse
      exact (Except.ok.inj hparse).symm
    · intro h
      rw [canonical, canonical, h]

/-- Members out of order at two depths, with characters that have to be escaped. -/
def nested : Json :=
  .object [("b", .array [.int 18446744073709551615, .int (-9223372036854775808),
    .object [("z", .null), ("\"\n", .string "\\")]]), ("a", .bool true)]

theorem canonicalForm_nested : Regular 127 nested ∧ CanonicalForm nested := by
  have hinner : Regular 125 (.object [("z", .null), ("\"\n", .string "\\")]) :=
    .object (by decide) (by simp [Regular.null, Regular.string])
  have hitems : Regular 126 (.array [.int 18446744073709551615, .int (-9223372036854775808),
      .object [("z", .null), ("\"\n", .string "\\")]]) := by
    refine .array (List.forall_mem_cons.mpr ⟨.int (by decide), ?_⟩)
    exact List.forall_mem_cons.mpr ⟨.int (by decide), List.forall_mem_singleton.mpr hinner⟩
  have hnested : Regular 127 nested :=
    .object (by decide) (List.forall_mem_cons.mpr ⟨hitems, List.forall_mem_singleton.mpr (.bool _)⟩)
  exact ⟨hnested, canonicalForm hnested⟩

example : nested.canonical =
    "\x7b\"a\":true,\"b\":[18446744073709551615,-9223372036854775808," ++
      "\x7b\"\\\"\\n\":\"\\\\\",\"z\":null\x7d]\x7d" := by
  decide +kernel

end LogShipper.Json
