import LogShipper.Json.Form
import LogShipper.Proofs.Json.CanonicalForm
import LogShipper.Proofs.Json.Shapes

/-!
# Values of a shape

`Fits shape v` says that `v` is a value as a reader of the shape gives it, with the fields of a
record in order. Whatever order its members are written in, the compact text of such a value is a
text of the shape for it.
-/

namespace LogShipper.Json

/-- The value is one that the shape describes. -/
inductive Fits : Shape → Json → Prop where
  | text (s : String) : Fits .text (.string s)
  | checked {expected : String} {complaint? : String → Option String} {s : String}
      (h : complaint? s = none) : Fits (.checked expected complaint?) (.string s)
  | flag (b : Bool) : Fits .flag (.bool b)
  | count {n : Nat} (hn : IsWord n) : Fits .count (.int n)
  | null {shape : Shape} : Fits (.nullable shape) .null
  | some {shape : Shape} {v : Json} (h : Fits shape v) (hnull : v ≠ .null) :
      Fits (.nullable shape) v
  | list {shape : Shape} {items : List Json} (h : ∀ v ∈ items, Fits shape v) :
      Fits (.list shape) (.array items)
  | pair {shape : Shape} {v w : Json} (hv : Fits shape v) (hw : Fits shape w) :
      Fits (.pair shape) (.array [v, w])
  | choice {words : List String} {s : String} (h : s ∈ words) : Fits (.choice words) (.string s)
  | record {name : String} {fields : List (Field Shape)} {members : List (String × Json)}
      (hnames : members.map Prod.fst = fields.map Field.name)
      (hnodup : (members.map Prod.fst).Nodup)
      (h : ∀ m ∈ members, ∀ f, fieldNamed? fields m.1 = some f → Fits f.content m.2) :
      Fits (.record name fields) (.object members)

/-- Every member of a record has a field. -/
theorem exists_fieldNamed? {fields : List (Field Shape)} {members : List (String × Json)}
    (hnames : members.map Prod.fst = fields.map Field.name) {m : String × Json}
    (hm : m ∈ members) : ∃ f, fieldNamed? fields m.1 = some f := by
  have hname : m.1 ∈ fields.map Field.name := hnames ▸ List.mem_map_of_mem hm
  obtain ⟨f, hf, heq⟩ := List.mem_map.mp hname
  apply Option.isSome_iff_exists.mp
  rw [fieldNamed?, List.find?_isSome]
  exact ⟨f, hf, by simpa using heq⟩

theorem Fits.distinct {shape : Shape} {v : Json} (h : Fits shape v) : Distinct v := by
  induction h with
  | text s => exact .string s
  | checked _ => exact .string _
  | flag b => exact .bool b
  | count _ => exact .int _
  | null => exact .null
  | some _ _ ih => exact ih
  | list _ ih => exact .array ih
  | pair _ _ ihv ihw => exact .array (by simp [ihv, ihw])
  | choice _ => exact .string _
  | record hnames hnodup _ ih =>
      refine .object hnodup fun m hm => ?_
      obtain ⟨f, hf⟩ := exists_fieldNamed? hnames hm
      exact ih m hm f hf

theorem IsString.ne_null {v : String} {t : List Char} (h : IsString v t) :
    t ≠ "null".toList := by
  obtain ⟨b, -, rfl⟩ := h
  intro heq
  cases heq

theorem IsList.ne_null {values : List (List Char)} {t : List Char} (h : IsList values t) :
    t ≠ "null".toList := by
  obtain ⟨⟨s, rfl, -⟩, -⟩ := h
  intro heq
  cases heq

/-- Only null is written as null. -/
theorem Says.ne_null {shape : Shape} {t : List Char} {v : Json} (h : Says shape t v)
    (hv : v ≠ .null) : t ≠ "null".toList := by
  induction h with
  | text h => exact h.ne_null
  | checked h _ => exact h.ne_null
  | flag b => cases b <;> decide
  | @count n _ =>
      intro heq
      obtain ⟨c, s, hs, hc⟩ := (magnitude_digits n).cons
      rw [hs] at heq
      cases heq
      cases hc
  | null => exact absurd rfl hv
  | some _ _ ih => exact ih hv
  | list h _ _ _ => exact h.ne_null
  | pair h _ _ _ _ => exact h.ne_null
  | choice h _ => exact h.ne_null
  | record h _ _ _ _ _ _ =>
      obtain ⟨⟨s, rfl, -⟩, -⟩ := h
      intro heq
      cases heq

theorem forall_of_forall₂ {α β : Type} {R : α → β → Prop} {P : β → Prop} {xs : List α}
    {ys : List β} (h : List.Forall₂ R xs ys) (hR : ∀ x ∈ xs, ∀ y, R x y → P y) :
    ∀ y ∈ ys, P y := by
  induction h with
  | nil => simp
  | cons hxy _ ih =>
      obtain ⟨hx, hxs⟩ := List.forall_mem_cons.mp hR
      exact List.forall_mem_cons.mpr ⟨hx _ hxy, ih hxs⟩

/-- A record is said by any object whose known members say its fields, in any order. -/
theorem says_record {name : String} {fields : List (Field Shape)}
    {members pairs : List (String × Json)} {given : List (String × List Char)} {t : List Char}
    (hnames : members.map Prod.fst = fields.map Field.name)
    (hnodup : (members.map Prod.fst).Nodup) (ht : IsObject given t)
    (hpairs : List.Forall₂ (fun m p => m.1 = p.1 ∧ ∀ f, fieldNamed? fields m.1 = some f →
      Says f.content m.2 p.2) (knownMembers fields given) pairs)
    (hperm : pairs.Perm members) : Says (.record name fields) t (.object members) := by
  obtain ⟨hlength, hzip⟩ := List.forall₂_iff_zip.mp hpairs
  have hnodup' : (pairs.map Prod.fst).Nodup := ((hperm.map Prod.fst).nodup_iff).mpr hnodup
  have hfields : List.Forall₂ (fun (m : String × Json) (f : Field Shape) => m.1 = f.name)
      members fields := by
    rw [← List.forall₂_eq_eq_eq, List.forall₂_map_left_iff, List.forall₂_map_right_iff] at hnames
    exact hnames
  have hmem : ∀ m ∈ members, m ∈ pairs := fun m hm => hperm.mem_iff.mpr hm
  refine .record ht hlength (fun _ hp => (hzip hp).1) (fun _ hp => (hzip hp).2) hnodup' ?_
  exact ((List.forall₂_and_left _ _).mpr ⟨hmem, hfields⟩).flip.imp fun _ _ h => h.symm

theorem says_compact_list {shape : Shape} {items items' : List Json}
    (h : List.Forall₂ (fun v w => Says shape w.compactChars v) items items') :
    Says (.list shape) (compactChars (.array items')) (.array items) := by
  have hvalue : ∀ w ∈ items', IsValue w.compactChars :=
    forall_of_forall₂ h fun _ _ _ hw => hw.isValue
  obtain ⟨hcount, hzip⟩ := List.forall₂_iff_zip.mp (List.forall₂_map_left_iff.mpr h.flip)
  exact .list (isList_compactChars hvalue) hcount fun _ hp => hzip hp

/-- Where the members of a record are written in another order, all of them are known. -/
theorem says_compact_record {name : String} {fields : List (Field Shape)}
    {members reordered members' : List (String × Json)}
    (hnames : members.map Prod.fst = fields.map Field.name)
    (hnodup : (members.map Prod.fst).Nodup) (hperm : members.Perm reordered)
    (h : List.Forall₂ (fun m n => m.1 = n.1 ∧ ∀ f, fieldNamed? fields m.1 = some f →
      Says f.content n.2.compactChars m.2) reordered members') :
    Says (.record name fields) (compactChars (.object members')) (.object members) := by
  have hfields : ∀ m ∈ reordered, ∃ f, fieldNamed? fields m.1 = some f :=
    fun m hm => exists_fieldNamed? hnames (hperm.mem_iff.mpr hm)
  have hvalue : ∀ n ∈ members', IsValue n.2.compactChars := by
    refine forall_of_forall₂ h ?_
    rintro m hm n ⟨-, hn⟩
    obtain ⟨f, hf⟩ := hfields m hm
    exact (hn f hf).isValue
  have hknown : knownMembers fields (members'.map fun m => (m.1, m.2.compactChars)) =
      members'.map fun m => (m.1, m.2.compactChars) := by
    refine List.filter_eq_self.mpr (List.forall_mem_map.mpr ?_)
    refine forall_of_forall₂ h ?_
    rintro m hm n ⟨hname, -⟩
    obtain ⟨f, hf⟩ := hfields m hm
    simp [← hname, hf]
  refine says_record hnames hnodup (isObject_compactChars hvalue) ?_ hperm.symm
  rw [hknown, List.forall₂_map_left_iff]
  refine h.flip.imp ?_
  rintro n m ⟨hname, hsaid⟩
  exact ⟨hname.symm, fun f hf => hsaid f (hname ▸ hf)⟩

theorem says_of_fits {shape : Shape} {v : Json} (h : Fits shape v) :
    ∀ {w : Json}, Same v w → Says shape w.compactChars v := by
  induction h with
  | text s =>
      rintro w ⟨⟩
      exact .text (isString_stringText s)
  | @checked _ _ s h =>
      rintro w ⟨⟩
      exact .checked (isString_stringText s) h
  | flag b =>
      rintro w ⟨⟩
      exact .flag b
  | @count n hn =>
      rintro w ⟨⟩
      exact .count hn
  | null =>
      rintro w ⟨⟩
      exact .null
  | some _ hnull ih =>
      intro w hw
      exact .some (ih hw) ((ih hw).ne_null hnull)
  | @list shape items _ ih =>
      intro w hw
      cases hw with
      | @array _ items' hlength hitems =>
          exact says_compact_list (List.forall₂_iff_zip.mpr ⟨hlength, fun hp =>
            ih _ (List.of_mem_zip hp).1 (hitems _ hp)⟩)
  | @pair shape v₁ v₂ _ _ ih₁ ih₂ =>
      intro w hw
      cases hw with
      | @array _ items' hlength hitems =>
          obtain ⟨w₁, w₂, rfl⟩ := List.length_eq_two.mp hlength.symm
          have h₁ := ih₁ (hitems (v₁, w₁) (by simp))
          have h₂ := ih₂ (hitems (v₂, w₂) (by simp))
          refine .pair (isList_compactChars ?_) h₁ h₂
          simp [h₁.isValue, h₂.isValue]
  | @choice words s h =>
      rintro w ⟨⟩
      exact .choice (isString_stringText s) h
  | @record name fields members hnames hnodup _ ih =>
      intro w hw
      cases hw with
      | @object _ reordered members' hperm hnames' hsame =>
          have hpairs := forall₂_iff_map_eq.mpr hnames'
          refine says_compact_record hnames hnodup hperm (List.forall₂_iff_zip.mpr ?_)
          refine ⟨hpairs.length_eq, fun {m n} hp => ⟨List.forall₂_zip hpairs hp, ?_⟩⟩
          intro f hf
          exact ih m (hperm.mem_iff.mpr (List.of_mem_zip hp).1) f hf (hsame _ hp)

theorem names_of_forall₂ {fields : List (Field Shape)} {members : List (String × Json)}
    (h : List.Forall₂ (fun (f : Field Shape) m => m.1 = f.name ∧ Fits f.content m.2) fields
      members) : members.map Prod.fst = fields.map Field.name := by
  induction h with
  | nil => rfl
  | cons hm _ ih => rw [List.map_cons, List.map_cons, hm.1, ih]

theorem fits_of_fieldNamed? {fields : List (Field Shape)} {members : List (String × Json)}
    (hnodup : (fields.map Field.name).Nodup)
    (h : List.Forall₂ (fun (f : Field Shape) m => m.1 = f.name ∧ Fits f.content m.2) fields
      members) :
    ∀ m ∈ members, ∀ f, fieldNamed? fields m.1 = some f → Fits f.content m.2 := by
  induction h with
  | nil => simp
  | @cons g n fields members hn hrest ih =>
      obtain ⟨hnot, hnodup⟩ := List.nodup_cons.mp hnodup
      intro m hm f hf
      rcases List.mem_cons.mp hm with rfl | hm
      · rw [fieldNamed?, List.find?_cons_of_pos (by simp [hn.1])] at hf
        cases hf
        exact hn.2
      · have hne : g.name ≠ m.1 := by
          intro heq
          apply hnot
          rw [heq, ← names_of_forall₂ hrest]
          exact List.mem_map_of_mem hm
        rw [fieldNamed?, List.find?_cons_of_neg (by simpa using hne)] at hf
        exact ih hnodup m hm f hf

/-- A record fits if every field has its member, in order. -/
theorem fits_record {name : String} {fields : List (Field Shape)}
    {members : List (String × Json)} (hnodup : (fields.map Field.name).Nodup)
    (h : List.Forall₂ (fun (f : Field Shape) m => m.1 = f.name ∧ Fits f.content m.2) fields
      members) : Fits (.record name fields) (.object members) :=
  .record (names_of_forall₂ h) (names_of_forall₂ h ▸ hnodup) (fits_of_fieldNamed? hnodup h)

end LogShipper.Json
