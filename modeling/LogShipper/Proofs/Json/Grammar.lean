import LogShipper.Json.Reader.Skip
import Mathlib.Data.List.Basic
import Mathlib.Data.List.Forall2
import Mathlib.Data.List.TakeWhile

/-!
# The grammar of JSON texts

Which texts are JSON values, said without a reader. A value is a text that neither begins nor ends
with a blank. What stands behind an opening bracket, up to what is left behind the closing one, is a
`Run` of items with commas between them, and blanks may stand around every item. Strings are cut in
two steps: `Body` says what may stand between two quotes, and `Spells` which text it then stands
for. There is none for half of a pair of escapes.
-/

namespace LogShipper.Json

/-! ## Blanks -/

/-- Nothing but blanks. -/
def Gap (w : List Char) : Prop :=
  ∀ c ∈ w, isSpace c = true

/-- Here a value that stands in front has come to its end. -/
def Stops (s : List Char) : Prop :=
  ∀ c ∈ s.head?, isSpace c = true ∨ c = ',' ∨ c = ']' ∨ c = '\x7d'

theorem gap_nil : Gap [] := by
  simp [Gap]

theorem skipSpace_append {w : List Char} (hw : Gap w) (s : List Char) :
    skipSpace (w ++ s) = skipSpace s := by
  unfold skipSpace
  exact List.dropWhile_append_of_pos hw

theorem skipSpace_cons {c : Char} (h : isSpace c = false) (s : List Char) :
    skipSpace (c :: s) = c :: s := by
  unfold skipSpace
  exact List.dropWhile_cons_of_neg (by simp [h])

theorem exists_gap (s : List Char) : ∃ w, Gap w ∧ s = w ++ skipSpace s := by
  refine ⟨s.takeWhile isSpace, ?_, List.takeWhile_append_dropWhile.symm⟩
  intro c hc
  exact List.mem_takeWhile_imp hc

theorem skipSpace_eq_nil_iff {s : List Char} : skipSpace s = [] ↔ Gap s := by
  unfold skipSpace Gap
  rw [List.dropWhile_eq_nil_iff]

theorem stops_nil : Stops [] := by
  simp [Stops]

theorem stops_of_gap {w : List Char} (hw : Gap w) {s : List Char} (hs : Stops s) :
    Stops (w ++ s) := by
  cases w with
  | nil => exact hs
  | cons c w =>
      intro d hd
      simp only [List.cons_append, List.head?_cons, Option.mem_def, Option.some.injEq] at hd
      subst hd
      exact Or.inl (hw c List.mem_cons_self)

/-- No digit, point or letter of an exponent comes next. -/
theorem Stops.ne {c : Char} {s : List Char} (h : Stops (c :: s)) :
    c.isDigit = false ∧ c ≠ '.' ∧ c ≠ 'e' ∧ c ≠ 'E' := by
  have hc := h c rfl
  simp only [isSpace, Bool.or_eq_true, beq_iff_eq] at hc
  rcases hc with (((rfl | rfl) | rfl) | rfl) | rfl | rfl | rfl <;> decide

theorem Stops.digitNext {s : List Char} (h : Stops s) : digitNext s = false := by
  cases s with
  | nil => rfl
  | cons c s => exact h.ne.1

/-! ## Strings -/

/-- Four hexadecimal digits and their number. -/
inductive Hex : List Char → Nat → Prop where
  | digits {a b c d : Char} {w x y z : Nat} (ha : Decimal.hexValue? a = some w)
      (hb : Decimal.hexValue? b = some x) (hc : Decimal.hexValue? c = some y)
      (hd : Decimal.hexValue? d = some z) : Hex [a, b, c, d] (((w * 16 + x) * 16 + y) * 16 + z)

/-- What may stand between the quotes of a string. -/
inductive Body : List Char → Prop where
  | nil : Body []
  | plain {c : Char} {s : List Char} (hquote : c ≠ '"') (hslash : c ≠ '\\')
      (hcontrol : 0x20 ≤ c.toNat) (rest : Body s) : Body (c :: s)
  | escape {c : Char} {s : List Char} (h : (shortEscape? c).isSome = true) (rest : Body s) :
      Body ('\\' :: c :: s)
  | code {x : List Char} {n : Nat} {s : List Char} (hx : Hex x n) (rest : Body s) :
      Body ('\\' :: 'u' :: (x ++ s))

/-- The text that stands between the quotes of a string, and the text it is. A number that is half
of a pair needs the other half behind it. -/
inductive Spells : List Char → List Char → Prop where
  | nil : Spells [] []
  | plain {c : Char} {s t : List Char} (hquote : c ≠ '"') (hslash : c ≠ '\\')
      (hcontrol : 0x20 ≤ c.toNat) (rest : Spells s t) : Spells (c :: s) (c :: t)
  | escape {c d : Char} {s t : List Char} (h : shortEscape? c = some d) (rest : Spells s t) :
      Spells ('\\' :: c :: s) (d :: t)
  | code {x : List Char} {n : Nat} {s t : List Char} (hx : Hex x n) (htrail : isTrail n = false)
      (hlead : isLead n = false) (rest : Spells s t) :
      Spells ('\\' :: 'u' :: (x ++ s)) (Char.ofNat n :: t)
  | pair {x y : List Char} {m n : Nat} {s t : List Char} (hx : Hex x m) (hlead : isLead m = true)
      (hy : Hex y n) (htrail : isTrail n = true) (rest : Spells s t) :
      Spells ('\\' :: 'u' :: (x ++ '\\' :: 'u' :: (y ++ s)))
        (Char.ofNat (0x10000 + (m - 0xD800) * 0x400 + (n - 0xDC00)) :: t)

theorem Spells.body {s t : List Char} (h : Spells s t) : Body s := by
  induction h with
  | nil => exact .nil
  | plain hquote hslash hcontrol _ ih => exact .plain hquote hslash hcontrol ih
  | escape h _ ih => exact .escape (by simp [h]) ih
  | code hx _ _ _ ih => exact .code hx ih
  | pair hx _ hy _ _ ih => exact .code hx (.code hy ih)

/-- The text is the string `v` between quotes. -/
def IsString (v : String) (t : List Char) : Prop :=
  ∃ s, Spells s v.toList ∧ t = '"' :: (s ++ ['"'])

/-! ## Numbers -/

/-- A run of digits. -/
def Digits (s : List Char) : Prop :=
  s ≠ [] ∧ ∀ c ∈ s, c.isDigit = true

/-- The digits before the point: a zero stands alone. -/
inductive Whole : List Char → Prop where
  | zero : Whole ['0']
  | digits {c : Char} {s : List Char} (hzero : c ≠ '0') (h : Digits (c :: s)) : Whole (c :: s)

/-- The digits behind the point, if there is one. -/
inductive Fraction : List Char → Prop where
  | none : Fraction []
  | digits {s : List Char} (h : Digits s) : Fraction ('.' :: s)

/-- The exponent, if there is one. -/
inductive Exponent : List Char → Prop where
  | none : Exponent []
  | digits {e : Char} {sign s : List Char} (he : e = 'e' ∨ e = 'E')
      (hsign : sign = [] ∨ sign = ['+'] ∨ sign = ['-']) (h : Digits s) :
      Exponent (e :: (sign ++ s))

/-- A number without its sign. -/
def Magnitude (t : List Char) : Prop :=
  ∃ whole fraction exponent, Whole whole ∧ Fraction fraction ∧ Exponent exponent ∧
    t = whole ++ (fraction ++ exponent)

/-- A number. -/
def IsNumber (t : List Char) : Prop :=
  Magnitude t ∨ ∃ s, Magnitude s ∧ t = '-' :: s

/-! ## Lists and objects -/

/-- The character that opens a bracket. -/
def Bracket.opener : Bracket → Char
  | .list => '['
  | .object => '\x7b'

/-- What stands before an item between brackets: blanks, and a comma unless it is the first. -/
inductive Lead : Bool → List Char → Prop where
  | first {w : List Char} (hw : Gap w) : Lead true w
  | next {v w : List Char} (hv : Gap v) (hw : Gap w) : Lead false (v ++ ',' :: w)

/-- Items up to the closing bracket and what is left behind it, where the first item is still to
come or one stands before. -/
inductive Run {α : Type} (closer : Char) (Item : α → List Char → Prop) (left : List Char) :
    Bool → List α → List Char → Prop where
  | close {first : Bool} {w : List Char} (hw : Gap w) :
      Run closer Item left first [] (w ++ closer :: left)
  | item {first : Bool} {x : α} {xs : List α} {u t s : List Char} (hu : Lead first u)
      (ht : Item x t) (rest : Run closer Item left false xs s) :
      Run closer Item left first (x :: xs) (u ++ (t ++ s))

/-- A member whose name stands between quotes as `name`, and whose value is `value`. -/
inductive Named (name value : List Char) : List Char → Prop where
  | mk {v w : List Char} (hv : Gap v) (hw : Gap w) :
      Named name value ('"' :: (name ++ '"' :: (v ++ ':' :: (w ++ value))))

/-- What an item between brackets is when its value is the given one. -/
inductive Bracket.Item : Bracket → List Char → List Char → Prop where
  | element {value : List Char} : Item .list value value
  | member {name value t : List Char} (hname : Body name) (h : Named name value t) :
      Item .object value t

/-- The text is a JSON value. -/
inductive IsValue : List Char → Prop where
  | null : IsValue "null".toList
  | bool (b : Bool) : IsValue (word b)
  | number {t : List Char} (h : IsNumber t) : IsValue t
  | string {s : List Char} (h : Body s) : IsValue ('"' :: (s ++ ['"']))
  | brackets (b : Bracket) {values : List (List Char)} {s : List Char}
      (h : Run b.closer b.Item [] true values s) (hvalues : ∀ t ∈ values, IsValue t) :
      IsValue (b.opener :: s)

/-- The text is a list of these values. -/
def IsList (values : List (List Char)) (t : List Char) : Prop :=
  (∃ s, t = '[' :: s ∧ Run ']' (Bracket.Item .list) [] true values s) ∧ ∀ v ∈ values, IsValue v

/-- A member with a name that is a text. -/
def Member (m : String × List Char) (t : List Char) : Prop :=
  ∃ s, Spells s m.1.toList ∧ Named s m.2 t

/-- The text is an object of these members, in this order. A name may be given more than once. -/
def IsObject (members : List (String × List Char)) (t : List Char) : Prop :=
  (∃ s, t = '\x7b' :: s ∧ Run '\x7d' Member [] true members s) ∧ ∀ m ∈ members, IsValue m.2

/-- The text is `t` with blanks around it. -/
def Holds (text : String) (t : List Char) : Prop :=
  ∃ v w, Gap v ∧ Gap w ∧ text.toList = v ++ (t ++ w)

theorem holds_ofList (t : List Char) : Holds (String.ofList t) t :=
  ⟨[], [], gap_nil, gap_nil, by simp⟩

/-! ## The first character -/

/-- The characters that values begin with. -/
def startsValue (c : Char) : Bool :=
  c.isDigit || ['n', 't', 'f', '-', '"', '[', '\x7b'].contains c

theorem startsValue_ne {c d : Char} (hc : startsValue c = true) (hd : startsValue d = false) :
    c ≠ d := by
  rintro rfl
  rw [hc] at hd
  cases hd

theorem not_space_of_startsValue {c : Char} (h : startsValue c = true) : isSpace c = false := by
  by_contra hspace
  simp only [isSpace, Bool.not_eq_false, Bool.or_eq_true, beq_iff_eq] at hspace
  rcases hspace with ((rfl | rfl) | rfl) | rfl <;> exact absurd h (by decide)

theorem Digits.cons {s : List Char} (h : Digits s) :
    ∃ c r, s = c :: r ∧ c.isDigit = true ∧ ∀ d ∈ r, d.isDigit = true := by
  obtain ⟨hne, hall⟩ := h
  obtain ⟨c, r, rfl⟩ := List.exists_cons_of_ne_nil hne
  exact ⟨c, r, rfl, hall c List.mem_cons_self, fun d hd => hall d (List.mem_cons_of_mem _ hd)⟩

theorem Whole.cons {s : List Char} (h : Whole s) :
    ∃ c r, s = c :: r ∧ c.isDigit = true ∧ ∀ d ∈ r, d.isDigit = true := by
  cases h with
  | zero => exact ⟨'0', [], rfl, by decide, by simp⟩
  | digits _ h => exact h.cons

theorem Magnitude.cons {t : List Char} (h : Magnitude t) :
    ∃ c r, t = c :: r ∧ c.isDigit = true := by
  obtain ⟨_, fraction, exponent, hwhole, _, _, rfl⟩ := h
  obtain ⟨c, r, rfl, hc, -⟩ := hwhole.cons
  exact ⟨c, r ++ (fraction ++ exponent), rfl, hc⟩

/-- A value begins with a character by which it can be told from blanks and brackets. -/
theorem IsValue.cons {t : List Char} (h : IsValue t) :
    ∃ c r, t = c :: r ∧ startsValue c = true := by
  cases h with
  | null => exact ⟨'n', "ull".toList, rfl, by decide⟩
  | bool b =>
      cases b with
      | false => exact ⟨'f', "alse".toList, rfl, by decide⟩
      | true => exact ⟨'t', "rue".toList, rfl, by decide⟩
  | number h =>
      rcases h with h | ⟨s, -, rfl⟩
      · obtain ⟨c, r, rfl, hc⟩ := h.cons
        exact ⟨c, r, rfl, by simp [startsValue, hc]⟩
      · exact ⟨'-', s, rfl, by decide⟩
  | string h => exact ⟨'"', _, rfl, by decide⟩
  | brackets b h _ => exact ⟨b.opener, _, rfl, by cases b <;> decide⟩

/-- No other value begins like null. -/
theorem IsValue.eq_null {r : List Char} (h : IsValue ('n' :: r)) : 'n' :: r = "null".toList := by
  generalize ht : 'n' :: r = t at h
  cases h with
  | null => rfl
  | bool b => cases b <;> cases ht
  | number h =>
      rcases h with h | ⟨s, -, rfl⟩
      · obtain ⟨c, s, rfl, hc⟩ := h.cons
        cases ht
        cases hc
      · cases ht
  | string _ => cases ht
  | brackets b _ _ => cases b <;> cases ht

theorem Magnitude.digitNext {t : List Char} (h : Magnitude t) (left : List Char) :
    digitNext (t ++ left) = true := by
  obtain ⟨c, r, rfl, hc⟩ := h.cons
  exact hc

/-! ## Runs -/

theorem Lead.append {first : Bool} {u w : List Char} (hu : Lead first u) (hw : Gap w) :
    Lead first (u ++ w) := by
  cases hu with
  | first hv => exact .first (List.forall_mem_append.mpr ⟨hv, hw⟩)
  | next hv hv' =>
      rw [List.append_assoc, List.cons_append]
      exact .next hv (List.forall_mem_append.mpr ⟨hv', hw⟩)

namespace Run

variable {α : Type} {closer : Char} {Item : α → List Char → Prop} {left : List Char}

theorem next {x : α} {xs : List α} {v w t s : List Char} (hv : Gap v) (hw : Gap w)
    (ht : Item x t) (rest : Run closer Item left false xs s) :
    Run closer Item left false (x :: xs) (v ++ ',' :: (w ++ (t ++ s))) := by
  have h := Run.item (.next hv hw) ht rest
  rwa [List.append_assoc, List.cons_append] at h

/-- What is left behind the closing bracket may be anything. -/
theorem append {first : Bool} {xs : List α} {s : List Char}
    (h : Run closer Item left first xs s) (more : List Char) :
    Run closer Item (left ++ more) first xs (s ++ more) := by
  induction h with
  | close hw =>
      rw [List.append_assoc, List.cons_append]
      exact .close hw
  | item hu ht _ ih =>
      rw [List.append_assoc, List.append_assoc]
      exact .item hu ht ih

/-- What is left behind the closing bracket may be taken off. -/
theorem cut {first : Bool} {xs : List α} {s : List Char} (h : Run closer Item left first xs s) :
    ∃ u, s = u ++ left ∧ Run closer Item [] first xs u := by
  induction h with
  | @close _ w hw => exact ⟨w ++ [closer], by simp, .close hw⟩
  | @item _ _ _ w t _ hw ht _ ih =>
      obtain ⟨u, rfl, hu⟩ := ih
      exact ⟨w ++ (t ++ u), by simp, .item hw ht hu⟩

/-- Behind an item the value in it has come to its end. -/
theorem stops {xs : List α} {s : List Char} (h : Run closer Item left false xs s)
    (hcloser : closer = ']' ∨ closer = '\x7d') : Stops s := by
  cases h with
  | close hw =>
      apply stops_of_gap hw
      rintro c ⟨⟩
      exact Or.inr (Or.inr hcloser)
  | item hu _ _ =>
      cases hu with
      | next hv hw =>
          rw [List.append_assoc]
          apply stops_of_gap hv
          rintro c ⟨⟩
          exact Or.inr (Or.inl rfl)

/-- The items may be said in another way. -/
theorem map₂ {β : Type} {Other : β → List Char → Prop} {R : α → β → Prop} {first : Bool}
    {xs : List α} {s : List Char} (h : Run closer Item left first xs s)
    (hitem : ∀ x y t, R x y → Item x t → Other y t) :
    ∀ {ys : List β}, List.Forall₂ R xs ys → Run closer Other left first ys s := by
  induction h with
  | close hw =>
      intro ys hys
      cases hys
      exact .close hw
  | item hu ht _ ih =>
      intro ys hys
      cases hys with
      | cons hxy hys => exact .item hu (hitem _ _ _ hxy ht) (ih hys)

end Run

theorem IsString.isValue {v : String} {t : List Char} (h : IsString v t) : IsValue t := by
  obtain ⟨s, hs, rfl⟩ := h
  exact .string hs.body

theorem IsList.isValue {values : List (List Char)} {t : List Char} (h : IsList values t) :
    IsValue t := by
  obtain ⟨⟨s, rfl, hrun⟩, hvalues⟩ := h
  exact .brackets .list hrun hvalues

theorem IsObject.isValue {members : List (String × List Char)} {t : List Char}
    (h : IsObject members t) : IsValue t := by
  obtain ⟨⟨s, rfl, hrun⟩, hvalues⟩ := h
  have hitems : Run '\x7d' (Bracket.Item .object) [] true (members.map Prod.snd) s := by
    refine hrun.map₂ (R := fun m v => m.2 = v) ?_ (List.forall₂_map_right_iff.mpr ?_)
    · rintro m v t rfl ⟨name, hname, hnamed⟩
      exact .member hname.body hnamed
    · exact List.forall₂_same.mpr fun m _ => rfl
  refine .brackets .object hitems ?_
  intro t ht
  obtain ⟨m, hm, rfl⟩ := List.mem_map.mp ht
  exact hvalues m hm

end LogShipper.Json
