import LogShipper.Json.Printer
import LogShipper.Proofs.Json.Members

/-!
# Compact texts

The compact text of a value is a JSON text of it, without a blank outside strings, and it is read as
the value again. The values are those that a reader of values can give: `Regular depth v` says that
the numbers of `v` are integers of 64 bits, that no object has a name twice and that brackets are
nested at most `depth` deep.
-/

namespace LogShipper.Json

/-- Values are reached from their parts. -/
theorem induct {motive : Json → Prop} (null : motive .null) (bool : ∀ b, motive (.bool b))
    (int : ∀ n, motive (.int n)) (real : ∀ x, motive (.real x)) (string : ∀ s, motive (.string s))
    (array : ∀ items, (∀ v ∈ items, motive v) → motive (.array items))
    (object : ∀ members : List (String × Json), (∀ m ∈ members, motive m.2) →
      motive (.object members)) (v : Json) : motive v :=
  @Json.rec motive (fun items => ∀ v ∈ items, motive v)
    (fun members => ∀ m ∈ members, motive m.2) (fun m => motive m.2)
    null bool int real string array object
    (fun _ hv => absurd hv List.not_mem_nil)
    (fun _ _ hv hitems => List.forall_mem_cons.mpr ⟨hv, hitems⟩)
    (fun _ hm => absurd hm List.not_mem_nil)
    (fun _ _ hm hmembers => List.forall_mem_cons.mpr ⟨hm, hmembers⟩)
    (fun _ _ hv => hv) v

/-- A value that a reader of values can give. -/
inductive Regular : Nat → Json → Prop where
  | null {depth : Nat} : Regular depth .null
  | bool {depth : Nat} (b : Bool) : Regular depth (.bool b)
  | int {depth : Nat} {n : Int} (h : IsWord n) : Regular depth (.int n)
  | string {depth : Nat} (s : String) : Regular depth (.string s)
  | array {depth : Nat} {items : List Json} (h : ∀ v ∈ items, Regular depth v) :
      Regular (depth + 1) (.array items)
  | object {depth : Nat} {members : List (String × Json)} (hnodup : (members.map Prod.fst).Nodup)
      (h : ∀ m ∈ members, Regular depth m.2) : Regular (depth + 1) (.object members)

/-! ## Commas -/

/-- A member as it is written. -/
def memberChars (m : String × Json) : List Char :=
  stringText m.1 ++ ':' :: m.2.compactChars

theorem compactItems_cons (v : Json) (items : List Json) :
    compactItems (v :: items) =
      v.compactChars ++ items.flatMap fun w => ',' :: w.compactChars := by
  induction items generalizing v with
  | nil => simp [compactItems]
  | cons w items ih => simp [compactItems, ih]

theorem compactMembers_cons (m : String × Json) (members : List (String × Json)) :
    compactMembers (m :: members) =
      memberChars m ++ members.flatMap fun m => ',' :: memberChars m := by
  induction members generalizing m with
  | nil => simp [compactMembers, memberChars]
  | cons n members ih => simp [compactMembers, ih, memberChars]

section

variable {α β : Type} {closer : Char} {Item : α → List Char → Prop} {f : β → α}
  {text : β → List Char}

theorem run_behind {xs : List β} (h : ∀ x ∈ xs, Item (f x) (text x)) :
    Run closer Item [] false (xs.map f) ((xs.flatMap fun x => ',' :: text x) ++ [closer]) := by
  induction xs with
  | nil => exact .close gap_nil
  | cons x xs ih =>
      obtain ⟨hx, hxs⟩ := List.forall_mem_cons.mp h
      have hrun := Run.next gap_nil gap_nil hx (ih hxs)
      simpa using hrun

theorem run_first {x : β} {xs : List β} (h : ∀ y ∈ x :: xs, Item (f y) (text y)) :
    Run closer Item [] true ((x :: xs).map f)
      (text x ++ (xs.flatMap fun x => ',' :: text x) ++ [closer]) := by
  obtain ⟨hx, hxs⟩ := List.forall_mem_cons.mp h
  have hrest : Run closer Item [] false (xs.map f) _ := run_behind hxs
  simpa using Run.item (.first gap_nil) hx hrest

end

theorem isList_compactChars {items : List Json} (h : ∀ v ∈ items, IsValue v.compactChars) :
    IsList (items.map compactChars) (compactChars (.array items)) := by
  refine ⟨⟨_, rfl, ?_⟩, List.forall_mem_map.mpr h⟩
  cases items with
  | nil => exact .close gap_nil
  | cons v items =>
      rw [compactItems_cons]
      exact run_first fun _ _ => .element

theorem member_memberChars (m : String × Json) :
    Member (m.1, m.2.compactChars) (memberChars m) := by
  obtain ⟨s, hs, htext⟩ := isString_stringText m.1
  refine ⟨s, hs, ?_⟩
  have hnamed : Named s m.2.compactChars ('"' :: (s ++ '"' :: ([] ++ ':' :: ([] ++ _)))) :=
    .mk gap_nil gap_nil
  rw [memberChars, htext]
  simpa using hnamed

theorem isObject_compactChars {members : List (String × Json)}
    (h : ∀ m ∈ members, IsValue m.2.compactChars) :
    IsObject (members.map fun m => (m.1, m.2.compactChars)) (compactChars (.object members)) := by
  refine ⟨⟨_, rfl, ?_⟩, List.forall_mem_map.mpr h⟩
  cases members with
  | nil => exact .close gap_nil
  | cons m members =>
      rw [compactMembers_cons]
      exact run_first fun m _ => member_memberChars m

theorem Regular.isValue {depth : Nat} {v : Json} (h : Regular depth v) :
    IsValue v.compactChars := by
  induction h with
  | null => exact .null
  | bool b => exact .bool b
  | @int _ n _ => exact .number (isNumber_integer n)
  | string s => exact (isString_stringText s).isValue
  | array _ ih => exact (isList_compactChars ih).isValue
  | object _ _ ih => exact (isObject_compactChars ih).isValue

/-! ## Blanks -/

/-- Where one stands in a text: outside strings, in one, or behind a backslash in one. -/
inductive Place where
  | outside
  | inside
  | escaped

/-- No blank is met outside strings. -/
def tight : Place → List Char → Bool
  | _, [] => true
  | .outside, c :: s => !isSpace c && tight (if c = '"' then .inside else .outside) s
  | .inside, c :: s =>
    tight (if c = '"' then .outside else if c = '\\' then .escaped else .inside) s
  | .escaped, _ :: s => tight .inside s

/-- The text begins and ends outside strings, and no blank is met on the way. -/
def Tight (t : List Char) : Prop :=
  ∀ s, tight .outside (t ++ s) = tight .outside s

theorem Tight.append {t u : List Char} (ht : Tight t) (hu : Tight u) : Tight (t ++ u) := by
  intro s
  rw [List.append_assoc, ht, hu]

theorem Tight.cons {c : Char} {t : List Char} (hspace : isSpace c = false) (hquote : c ≠ '"')
    (ht : Tight t) : Tight (c :: t) := by
  intro s
  rw [List.cons_append, tight, hspace, if_neg hquote, ht]
  rfl

theorem Tight.nil : Tight [] := by
  intro s
  rfl

theorem tight_flatMap {α : Type} {text : α → List Char} {xs : List α}
    (h : ∀ x ∈ xs, Tight (text x)) : Tight (xs.flatMap fun x => ',' :: text x) := by
  induction xs with
  | nil => exact .nil
  | cons x xs ih =>
      obtain ⟨hx, hxs⟩ := List.forall_mem_cons.mp h
      rw [List.flatMap_cons]
      exact (Tight.cons (by decide) (by decide) hx).append (ih hxs)

theorem tight_digits (n : Nat) : Tight (Decimal.digits n) := by
  have hdigit : ∀ c ∈ Decimal.digits n, c.isDigit = true := fun c hc =>
    Decimal.isDigit_of_mem_digits hc
  generalize Decimal.digits n = ds at hdigit
  induction ds with
  | nil => exact .nil
  | cons c ds ih =>
      obtain ⟨hc, hds⟩ := List.forall_mem_cons.mp hdigit
      have hspace : isSpace c = false := not_space_of_startsValue (by simp [startsValue, hc])
      refine Tight.cons hspace ?_ (ih hds)
      rintro rfl
      cases hc

theorem Hex.inside {x : List Char} {n : Nat} (hx : Hex x n) (s : List Char) :
    tight .inside (x ++ s) = tight .inside s := by
  have hplain : ∀ {c : Char} {k : Nat}, Decimal.hexValue? c = some k → c ≠ '"' ∧ c ≠ '\\' := by
    intro c k hc
    refine ⟨?_, ?_⟩ <;> (rintro rfl; cases hc)
  cases hx with
  | digits ha hb hc hd =>
      simp [tight, hplain ha, hplain hb, hplain hc, hplain hd]

theorem Body.inside {b : List Char} (hb : Body b) (s : List Char) :
    tight .inside (b ++ '"' :: s) = tight .outside s := by
  induction hb with
  | nil => simp [tight]
  | plain hquote hslash _ _ ih => simpa [tight, hquote, hslash] using ih
  | escape _ _ ih => simpa [tight] using ih
  | code hx _ ih => simpa [tight, hx.inside] using ih

theorem tight_stringText (s : String) : Tight (stringText s) := by
  intro left
  obtain ⟨b, hb, htext⟩ := isString_stringText s
  rw [htext, List.cons_append, List.append_assoc]
  simpa [tight, isSpace] using hb.body.inside left

theorem Regular.tight {depth : Nat} {v : Json} (h : Regular depth v) : Tight v.compactChars := by
  induction h with
  | null => exact fun _ => rfl
  | bool b => cases b <;> exact fun _ => rfl
  | @int _ n _ =>
      cases n with
      | ofNat n => exact tight_digits n
      | negSucc n => exact .cons (by decide) (by decide) (tight_digits (n + 1))
  | string s => exact tight_stringText s
  | @array _ items _ ih =>
      refine .cons (by decide) (by decide) (.append ?_ (.cons (by decide) (by decide) .nil))
      cases items with
      | nil => exact .nil
      | cons v items =>
          obtain ⟨hv, hitems⟩ := List.forall_mem_cons.mp ih
          rw [compactItems_cons]
          exact hv.append (tight_flatMap hitems)
  | @object _ members _ _ ih =>
      have hmember : ∀ m ∈ members, Tight (memberChars m) := by
        intro m hm
        exact (tight_stringText m.1).append (.cons (by decide) (by decide) (ih m hm))
      refine .cons (by decide) (by decide) (.append ?_ (.cons (by decide) (by decide) .nil))
      cases members with
      | nil => exact .nil
      | cons m members =>
          obtain ⟨hm, hmembers⟩ := List.forall_mem_cons.mp hmember
          rw [compactMembers_cons]
          exact hm.append (tight_flatMap hmembers)

/-! ## Reading back -/

theorem reads_readNested_int (inner : Option (Reader Json)) {n : Int} (hn : IsWord n) :
    Reads (readNested inner) (Decimal.integer n) (.int n) := by
  intro w left hw hleft
  unfold readNested
  rw [skipSpace_append hw]
  cases n with
  | ofNat n =>
      have hread := readNumber_natural hn hleft
      obtain ⟨c, u, hs, hc⟩ := (magnitude_digits n).cons
      have htext : Decimal.integer (.ofNat n) = c :: u := hs
      rw [hs, List.cons_append] at hread
      rw [htext, List.cons_append,
        skipSpace_cons (not_space_of_startsValue (by simp [startsValue, hc]))]
      -- A digit is none of the characters that other values begin with.
      split
      · rename_i heq
        cases heq
      all_goals rename_i heq
      all_goals cases heq
      all_goals try cases hc
      simp only [hc, if_true]
      exact hread
  | negSucc n =>
      have hread := readNumber_negative hn hleft
      have htext : Decimal.integer (.negSucc n) = '-' :: Decimal.digits (n + 1) := rfl
      rw [htext, List.cons_append, skipSpace_cons (by decide)]
      exact hread

theorem reads_readNested_string (inner : Option (Reader Json)) (s : String) :
    Reads (readNested inner) (stringText s) (.string s) := by
  intro w left hw _
  obtain ⟨b, hb, htext⟩ := isString_stringText s
  unfold readNested
  rw [skipSpace_append hw, htext, List.cons_append, skipSpace_cons (by decide), List.append_assoc]
  simp only [List.singleton_append, readString_append hb, ok_bind]

theorem reads_readNested_null (inner : Option (Reader Json)) :
    Reads (readNested inner) "null".toList .null := by
  intro w left hw _
  have hword := expectWord_append "ull".toList left
  have hspace : skipSpace ("null".toList ++ left) = 'n' :: ("ull".toList ++ left) :=
    skipSpace_cons (by decide) _
  unfold readNested
  rw [skipSpace_append hw, hspace]
  simp only [hword, ok_bind]

theorem reads_readNested_bool (inner : Option (Reader Json)) (b : Bool) :
    Reads (readNested inner) (word b) (.bool b) := by
  intro w left hw _
  unfold readNested
  rw [skipSpace_append hw]
  cases b with
  | false =>
      have hword := expectWord_append "alse".toList left
      have hspace : skipSpace (word false ++ left) = 'f' :: ("alse".toList ++ left) :=
        skipSpace_cons (by decide) _
      rw [hspace]
      simp only [hword, ok_bind]
  | true =>
      have hword := expectWord_append "rue".toList left
      have hspace : skipSpace (word true ++ left) = 't' :: ("rue".toList ++ left) :=
        skipSpace_cons (by decide) _
      rw [hspace]
      simp only [hword, ok_bind]

/-- What is written for a value is read as the value, whatever stands behind it. -/
theorem reads_readValue {depth : Nat} {v : Json} (h : Regular depth v) :
    Reads (readValue depth) v.compactChars v := by
  induction h with
  | @null depth => cases depth <;> exact reads_readNested_null _
  | @bool depth b => cases depth <;> exact reads_readNested_bool _ b
  | @int depth n hn => cases depth <;> exact reads_readNested_int _ hn
  | @string depth s => cases depth <;> exact reads_readNested_string _ s
  | @array depth items hitems ih =>
      intro w left hw _
      obtain ⟨⟨s, heq, hrun⟩, hvalues⟩ := isList_compactChars fun v hv => (hitems v hv).isValue
      have hitem : List.Forall₂ (Reads (readValue depth)) (items.map compactChars) items :=
        List.forall₂_map_left_iff.mpr (List.forall₂_same.mpr ih)
      have hread := readItems_run (hrun.append left) hvalues hitem
      rw [readValue, heq]
      unfold readNested
      rw [skipSpace_append hw, List.cons_append, skipSpace_cons (by decide)]
      simpa using hread
  | @object depth members hnodup hmembers ih =>
      intro w left hw _
      obtain ⟨⟨s, heq, hrun⟩, hvalues⟩ :=
        isObject_compactChars fun m hm => (hmembers m hm).isValue
      have hmember : List.Forall₂ (fun m p => m.1 = p.1 ∧ Reads (readValue depth) m.2 p.2)
          (members.map fun m => (m.1, m.2.compactChars)) members :=
        List.forall₂_map_left_iff.mpr (List.forall₂_same.mpr fun m hm => ⟨rfl, ih m hm⟩)
      have hread := readMembers_run (hrun.append left) hmember
      rw [readValue, heq]
      unfold readNested
      rw [skipSpace_append hw, List.cons_append, skipSpace_cons (by decide)]
      simpa using hread

theorem parse_compact {v : Json} (h : Regular maxDepth v) : parse v.compact = .ok v :=
  readAll_of_reads (holds_ofList _) (reads_readValue h)

end LogShipper.Json
