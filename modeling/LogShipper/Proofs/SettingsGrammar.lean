import LogShipper.Proofs.Json.Shapes
import LogShipper.Settings.File
import Mathlib.Data.List.Perm.Basic

/-!
# The grammar of settings texts

A settings text is an object whose members under names of settings are strings, no name twice, or an
array of strings, one for each setting from the first on. `TextGives` tells which source such a text
is, without a reader. No other text is accepted, and nothing but the source counts.
-/

namespace LogShipper

open Json (IsString IsList IsObject IsValue Holds Gap Run Bracket Reads)

namespace Settings

/-- The members under names of settings. -/
def recognised (members : List (String × List Char)) : List (String × List Char) :=
  members.filter fun m => (Setting.ofName? m.1).isSome

/-- The texts are these strings, under the same names. -/
def AreStrings (members : List (String × List Char)) (pairs : List (String × String)) : Prop :=
  List.Forall₂ (fun m p => m.1 = p.1 ∧ IsString p.2 m.2) members pairs

/-- What a settings text gives. -/
inductive TextGives (text : String) : Source → Prop where
  | object {members : List (String × List Char)} {t : List Char} {pairs : List (String × String)}
      (htext : Holds text t) (ht : IsObject members t)
      (hpairs : AreStrings (recognised members) pairs) (hnodup : (pairs.map Prod.fst).Nodup) :
      TextGives text (.ofList pairs)
  | array {values : List (List Char)} {t : List Char} {strings : List String}
      (htext : Holds text t) (ht : IsList values t)
      (hstrings : List.Forall₂ IsString strings values)
      (hlength : strings.length ≤ Setting.all.length) :
      TextGives text (.ofList ((Setting.all.map Setting.name).zip strings))

/-! ## The fields -/

/-- The fields of the settings record. -/
def fields : List (Json.Field (Json.Reader Json)) :=
  Json.fieldReaders (Setting.all.map fun k => ⟨k.name, .text, .omitted⟩)

theorem shape_read : (JsonForm.shape Settings).read = Json.readRecord "Settings" fields :=
  rfl

theorem fields_eq_map :
    fields = Setting.all.map fun k => ⟨k.name, Json.Shape.text.read, .omitted⟩ := by
  rw [fields, Json.fieldReaders_eq_map, List.map_map]
  rfl

theorem names_fields : fields.map Json.Field.name = Setting.all.map Setting.name := by
  rw [fields_eq_map, List.map_map]
  rfl

theorem length_fields : fields.length = Setting.all.length := by
  rw [fields_eq_map, List.length_map]

theorem of_mem_fields {f : Json.Field (Json.Reader Json)} (hf : f ∈ fields) :
    f.content = Json.Shape.text.read ∧ f.absence = .omitted := by
  rw [fields_eq_map] at hf
  obtain ⟨k, -, rfl⟩ := List.mem_map.mp hf
  exact ⟨rfl, rfl⟩

theorem isSome_fieldNamed? (name : String) :
    (Json.fieldNamed? fields name).isSome = (Setting.ofName? name).isSome := by
  rw [fields_eq_map, Json.fieldNamed?, Setting.ofName?]
  simp only [List.find?_map, Option.isSome_map]
  rfl

theorem knownMembers_fields (members : List (String × List Char)) :
    Json.knownMembers fields members = recognised members := by
  simp only [Json.knownMembers, recognised, isSome_fieldNamed?]

/-- A value of a setting is the string it stands for. -/
def Text (_ : Json.Reader Json) (t : List Char) (v : Json) : Prop :=
  ∃ s, IsString s t ∧ v = .string s

theorem reads_text {s : String} {t : List Char} (h : IsString s t) :
    Reads Json.Shape.text.read t (.string s) :=
  Json.Says.reads (.text h)

theorem sound_text : Json.Sound Text Json.Shape.text.read := by
  intro s r v h
  rw [Json.Shape.read] at h
  obtain ⟨⟨x, r'⟩, hread, hlast⟩ := Json.ok_of_bind h
  cases hlast
  obtain ⟨w, t, hw, ht, rfl⟩ := Json.string_of_readText hread
  exact ⟨w, t, hw, ht.isValue, rfl, x, ht, rfl⟩

/-! ## From members to sources -/

/-- The strings as values. -/
def strings (pairs : List (String × String)) : List (String × Json) :=
  pairs.map fun p => (p.1, .string p.2)

theorem sourceOfMembers_strings (pairs : List (String × String)) :
    sourceOfMembers (strings pairs) = .ofList pairs := by
  funext name
  simp only [sourceOfMembers, strings, Source.ofList, Json.member?, List.find?_map,
    Function.comp_def]
  cases pairs.find? fun p => decide (p.1 = name) <;> rfl

theorem overlay_congr {s : Settings} {f g : Source} (h : ∀ k : Setting, f k.name = g k.name) :
    s.overlay f = s.overlay g := by
  ext k
  rw [value_overlay, value_overlay, h]

theorem map_fst_strings (pairs : List (String × String)) :
    (strings pairs).map Prod.fst = pairs.map Prod.fst := by
  simp [strings]

theorem zip_strings (names texts : List String) :
    names.zip (texts.map Json.string) = strings (names.zip texts) := by
  rw [List.zip_map_right]
  rfl

/-- What is arranged from the members gives the settings what the members gave, in any order. -/
theorem overlay_arranged {given : List (String × Json)} {pairs : List (String × String)}
    (hgiven : (strings pairs).Perm given) (hnodup : (pairs.map Prod.fst).Nodup)
    {arranged : List (String × Json)} (harrange : Json.arrange given fields = .ok arranged) :
    presets.overlay (sourceOfMembers arranged) = ofSource (.ofList pairs) := by
  rw [Json.arrange_omitted given fun f hf => (of_mem_fields hf).2] at harrange
  cases harrange
  refine overlay_congr fun k => ?_
  have hname : k.name ∈ fields.map Json.Field.name := by
    rw [names_fields]
    exact List.mem_map_of_mem (Setting.mem_all k)
  rw [← sourceOfMembers_strings, sourceOfMembers, sourceOfMembers,
    Json.member?_filterMap given hname, Json.member?_perm hgiven (by rwa [map_fst_strings])]

theorem ofText_of_parse {text : String} {members : List (String × Json)}
    (h : (JsonForm.shape Settings).parse text = .ok (.object members)) :
    ofText text = .ok (presets.overlay (sourceOfMembers members)) := by
  rw [ofText, JsonForm.decode, h]
  rfl

theorem parse_of_ofText {text : String} {s : Settings} (h : ofText text = .ok s) :
    ∃ members, (JsonForm.shape Settings).parse text = .ok (.object members) ∧
      s = presets.overlay (sourceOfMembers members) := by
  unfold ofText JsonForm.decode at h
  cases hparse : (JsonForm.shape Settings).parse text with
  | error fault =>
      rw [hparse] at h
      cases h
  | ok v =>
      rw [hparse] at h
      cases v with
      | object members =>
          cases h
          exact ⟨members, rfl, rfl⟩
      | _ => cases h

/-! ## Acceptance -/

theorem known_of_areStrings {members : List (String × List Char)} {pairs : List (String × String)}
    (h : AreStrings (recognised members) pairs) :
    List.Forall₂ (Json.Known Reads fields) (Json.knownMembers fields members) (strings pairs) := by
  rw [strings, List.forall₂_map_right_iff, knownMembers_fields]
  have hfield : ∀ m ∈ recognised members, (Json.fieldNamed? fields m.1).isSome := by
    intro m hm
    rw [isSome_fieldNamed?]
    exact (List.mem_filter.mp hm).2
  refine ((List.forall₂_and_left _ _).mpr ⟨hfield, h⟩).imp ?_
  rintro m p ⟨hsome, hname, hstring⟩
  obtain ⟨f, hf⟩ := Option.isSome_iff_exists.mp hsome
  refine ⟨hname.symm, f, hf, ?_⟩
  rw [(of_mem_fields (List.mem_of_find?_eq_some hf)).1]
  exact reads_text hstring

theorem ofText_of_textGives {text : String} {given : Source} (h : TextGives text given) :
    ofText text = .ok (ofSource given) := by
  cases h with
  | @object members t pairs htext ht hpairs hnodup =>
      have hknown := known_of_areStrings hpairs
      obtain ⟨⟨s, rfl, hrun⟩, hvalues⟩ := id ht
      obtain ⟨arranged, harrange⟩ : ∃ arranged,
          Json.arrange (strings pairs).reverse fields = .ok arranged :=
        ⟨_, Json.arrange_omitted _ fun f hf => (of_mem_fields hf).2⟩
      have hreads : Reads (JsonForm.shape Settings).read ('\x7b' :: s) (.object arranged) := by
        rw [shape_read]
        refine Json.reads_atValue ht.isValue fun left _ => ?_
        exact Json.readNamed_run (hrun.append left) hvalues hknown
          (by rwa [map_fst_strings]) harrange
      rw [ofText_of_parse (Json.readAll_of_reads htext hreads),
        overlay_arranged (List.reverse_perm _).symm hnodup harrange]
  | @array values t texts htext ht hstrings hlength =>
      obtain ⟨⟨s, rfl, hrun⟩, hvalues⟩ := id ht
      have hitems : List.Forall₂ (Reads Json.Shape.text.read) values (texts.map .string) := by
        rw [List.forall₂_map_right_iff]
        exact hstrings.flip.imp fun t x hx => reads_text hx
      have hcount : values.length ≤ fields.length := by
        rw [← hstrings.length_eq, length_fields]
        exact hlength
      have hreads : Reads (JsonForm.shape Settings).read ('[' :: s)
          (.object ((fields.map Json.Field.name).zip (texts.map .string))) := by
        rw [shape_read]
        refine Json.reads_atValue ht.isValue fun left _ => ?_
        exact Json.readPositional_run (fun f hf => of_mem_fields hf) "Settings" fields.length
          (hrun.append left) hvalues hitems hcount rfl []
      rw [ofText_of_parse (Json.readAll_of_reads htext hreads), names_fields, zip_strings,
        sourceOfMembers_strings]
      rfl

theorem exists_strings_of_known {members : List (String × List Char)}
    {pairs : List (String × Json)} (h : List.Forall₂ (Json.Known Text fields) members pairs) :
    ∃ texts, AreStrings members texts ∧ pairs = strings texts := by
  induction h with
  | nil => exact ⟨[], .nil, rfl⟩
  | @cons m p members pairs hp _ ih =>
      obtain ⟨hname, f, -, x, hx, hvalue⟩ := hp
      obtain ⟨texts, htexts, rfl⟩ := ih
      have hp : p = (m.1, .string x) := Prod.ext hname hvalue
      exact ⟨(m.1, x) :: texts, .cons ⟨rfl, hx⟩ htexts, by rw [hp]; rfl⟩

theorem exists_strings_of_text {item : Json.Reader Json} {values : List (List Char)}
    {items : List Json} (h : List.Forall₂ (Text item) values items) :
    ∃ texts, List.Forall₂ IsString texts values ∧ items = texts.map .string := by
  induction h with
  | nil => exact ⟨[], .nil, rfl⟩
  | cons hv _ ih =>
      obtain ⟨x, hx, rfl⟩ := hv
      obtain ⟨texts, htexts, rfl⟩ := ih
      exact ⟨x :: texts, .cons hx htexts, rfl⟩

theorem textGives_of_ofText {text : String} {s : Settings} (h : ofText text = .ok s) :
    ∃ given, TextGives text given ∧ s = ofSource given := by
  obtain ⟨members, hparse, rfl⟩ := parse_of_ofText h
  obtain ⟨w, hw, hread⟩ := Json.read_of_readAll hparse
  rw [shape_read] at hread
  obtain ⟨v, r, hv, ⟨htext, hlist⟩ | ⟨htext, hobject⟩⟩ := Json.of_readRecord hread
  · obtain ⟨values, items, hrun, hvalues, hitems, hlength, heq⟩ :=
      Json.run_of_readPositional sound_text (fun f hf => (of_mem_fields hf).1) _ _ hlist
    obtain ⟨texts, htexts, rfl⟩ := exists_strings_of_text hitems
    obtain ⟨u, rfl, hu⟩ := hrun.cut
    cases heq
    refine ⟨_, .array (t := '[' :: u) ⟨v, w, hv, hw, by simp [htext]⟩ ⟨⟨u, rfl, hu⟩, hvalues⟩
      htexts ?_, ?_⟩
    · rw [htexts.length_eq, ← length_fields]
      exact hlength
    · rw [names_fields, zip_strings, List.reverse_nil, List.nil_append, sourceOfMembers_strings]
      rfl
  · obtain ⟨members', pairs, arranged, hrun, hvalues, hknown, hnodup, harrange, heq⟩ :=
      Json.run_of_readNamed (fun f hf => (of_mem_fields hf).1 ▸ sound_text) hobject
    rw [knownMembers_fields] at hknown
    obtain ⟨texts, htexts, rfl⟩ := exists_strings_of_known hknown
    rw [map_fst_strings] at hnodup
    obtain ⟨u, rfl, hu⟩ := hrun.cut
    cases heq
    refine ⟨_, .object (t := '\x7b' :: u) ⟨v, w, hv, hw, by simp [htext]⟩
      ⟨⟨u, rfl, hu⟩, hvalues⟩ htexts hnodup, ?_⟩
    exact overlay_arranged (List.reverse_perm _).symm hnodup harrange

/-- A text is accepted if and only if it gives a source, and the snapshot is that of the source. -/
theorem ofText_eq_ok_iff {text : String} {s : Settings} :
    ofText text = .ok s ↔ ∃ given, TextGives text given ∧ s = ofSource given := by
  constructor
  · exact textGives_of_ofText
  · rintro ⟨given, hgiven, rfl⟩
    exact ofText_of_textGives hgiven

/-! ## Every text -/

/-- No order of the pairs counts. -/
theorem ofList_perm {pairs pairs' : List (String × String)} (h : pairs.Perm pairs')
    (hnodup : (pairs.map Prod.fst).Nodup) : Source.ofList pairs = Source.ofList pairs' := by
  funext name
  have hperm : (strings pairs).Perm (strings pairs') := h.map _
  rw [← sourceOfMembers_strings, ← sourceOfMembers_strings, sourceOfMembers, sourceOfMembers,
    Json.member?_perm hperm (by rwa [map_fst_strings])]

theorem AreStrings.names {members : List (String × List Char)} {pairs : List (String × String)}
    (h : AreStrings members pairs) : members.map Prod.fst = pairs.map Prod.fst := by
  induction h with
  | nil => rfl
  | cons hp _ ih => rw [List.map_cons, List.map_cons, hp.1, ih]

theorem exists_forall₂_iff {α β : Type} {R : α → β → Prop} {xs : List α} :
    (∃ ys, List.Forall₂ R xs ys) ↔ ∀ x ∈ xs, ∃ y, R x y := by
  induction xs with
  | nil => simp
  | cons x xs ih =>
      rw [List.forall_mem_cons, ← ih]
      constructor
      · rintro ⟨ys, hys⟩
        cases hys with
        | cons hx hxs => exact ⟨⟨_, hx⟩, _, hxs⟩
      · rintro ⟨⟨y, hy⟩, ys, hys⟩
        exact ⟨y :: ys, .cons hy hys⟩

theorem exists_areStrings_iff {members : List (String × List Char)} :
    (∃ pairs, AreStrings members pairs) ↔ ∀ m ∈ members, ∃ v, IsString v m.2 := by
  unfold AreStrings
  rw [exists_forall₂_iff]
  constructor
  · intro h m hm
    obtain ⟨p, -, hp⟩ := h m hm
    exact ⟨p.2, hp⟩
  · intro h m hm
    obtain ⟨v, hv⟩ := h m hm
    exact ⟨(m.1, v), rfl, hv⟩

theorem exists_texts_iff {values : List (List Char)} :
    (∃ texts, List.Forall₂ IsString texts values) ↔ ∀ t ∈ values, ∃ v, IsString v t := by
  have hflip : (∃ texts, List.Forall₂ (flip IsString) values texts) ↔
      ∀ t ∈ values, ∃ v, IsString v t := exists_forall₂_iff
  constructor
  · rintro ⟨texts, htexts⟩
    exact hflip.mp ⟨texts, htexts.flip⟩
  · intro h
    obtain ⟨texts, htexts⟩ := hflip.mpr h
    exact ⟨texts, htexts.flip⟩

section

variable {text : String} {t : List Char} {s : Settings}

theorem ofText_object {members : List (String × List Char)} (htext : Holds text t)
    (ht : IsObject members t) :
    ofText text = .ok s ↔ ∃ pairs, AreStrings (recognised members) pairs ∧
      (pairs.map Prod.fst).Nodup ∧ s = ofSource (.ofList pairs) := by
  rw [ofText_eq_ok_iff]
  constructor
  · rintro ⟨given, hgiven, rfl⟩
    cases hgiven with
    | @object members' t' pairs htext' ht' hpairs hnodup =>
        obtain rfl := htext.unique htext' ht.isValue ht'.isValue
        obtain rfl := ht.unique ht'
        exact ⟨pairs, hpairs, hnodup, rfl⟩
    | array htext' ht' _ _ =>
        obtain rfl := htext.unique htext' ht.isValue ht'.isValue
        obtain ⟨⟨_, rfl, -⟩, -⟩ := ht
        obtain ⟨⟨_, heq, -⟩, -⟩ := ht'
        cases heq
  · rintro ⟨pairs, hpairs, hnodup, rfl⟩
    exact ⟨_, .object htext ht hpairs hnodup, rfl⟩

theorem ofText_array {values : List (List Char)} (htext : Holds text t) (ht : IsList values t) :
    ofText text = .ok s ↔ ∃ texts, List.Forall₂ IsString texts values ∧
      texts.length ≤ 19 ∧ s = ofSource (.ofList ((Setting.all.map Setting.name).zip texts)) := by
  rw [ofText_eq_ok_iff]
  constructor
  · rintro ⟨given, hgiven, rfl⟩
    cases hgiven with
    | object htext' ht' _ _ =>
        obtain rfl := htext.unique htext' ht.isValue ht'.isValue
        obtain ⟨⟨_, rfl, -⟩, -⟩ := ht
        obtain ⟨⟨_, heq, -⟩, -⟩ := ht'
        cases heq
    | @array values' t' texts htext' ht' htexts hlength =>
        obtain rfl := htext.unique htext' ht.isValue ht'.isValue
        obtain rfl := ht.unique ht'
        exact ⟨texts, htexts, hlength, rfl⟩
  · rintro ⟨texts, htexts, hlength, rfl⟩
    exact ⟨_, .array htext ht htexts hlength, rfl⟩

theorem ofText_object_congr {members members' : List (String × List Char)} {text' : String}
    {t' : List Char} (htext : Holds text t) (ht : IsObject members t) (htext' : Holds text' t')
    (ht' : IsObject members' t') (hperm : (recognised members).Perm (recognised members'))
    (h : ofText text = .ok s) : ofText text' = .ok s := by
  obtain ⟨pairs, hpairs, hnodup, rfl⟩ := (ofText_object htext ht).mp h
  obtain ⟨pairs', hpairs', hperm'⟩ := List.perm_comp_forall₂ hperm.symm hpairs
  refine (ofText_object htext' ht').mpr ⟨pairs', hpairs', ?_, ?_⟩
  · exact ((hperm'.map Prod.fst).nodup_iff).mpr hnodup
  · rw [ofList_perm hperm'.symm hnodup]

end

theorem ofText_error {text : String} (h : ¬ ∃ s, ofText text = .ok s) :
    ∃ fault, ofText text = .error (.malformed fault text) := by
  unfold ofText at h ⊢
  cases hdecode : (JsonForm.decode text : Except Json.Fault Settings) with
  | ok s =>
      rw [hdecode] at h
      exact absurd ⟨s, rfl⟩ h
  | error fault => exact ⟨fault, rfl⟩

/-- How a text is read as settings. -/
structure ReadAsSettings (text : String) : Prop where
  /-- An object is accepted if no recognised name comes twice and every recognised member is a
  string. -/
  object_accepted : ∀ members t, Holds text t → IsObject members t →
    ((∃ s, ofText text = .ok s) ↔ ((recognised members).map Prod.fst).Nodup ∧
      ∀ m ∈ recognised members, ∃ v, IsString v m.2)
  /-- The recognised members are its source. -/
  object_source : ∀ members t s, Holds text t → IsObject members t →
    (ofText text = .ok s ↔ ∃ pairs, AreStrings (recognised members) pairs ∧
      (pairs.map Prod.fst).Nodup ∧ s = ofSource (.ofList pairs))
  /-- Neither their order nor any other member counts. -/
  object_order : ∀ members t text' members' t' s, Holds text t → IsObject members t →
    Holds text' t' → IsObject members' t' → (recognised members).Perm (recognised members') →
    (ofText text = .ok s ↔ ofText text' = .ok s)
  /-- An array is accepted if it has at most nineteen elements and all are strings. -/
  array_accepted : ∀ values t, Holds text t → IsList values t →
    ((∃ s, ofText text = .ok s) ↔ values.length ≤ 19 ∧ ∀ v ∈ values, ∃ w, IsString w v)
  /-- The elements are the values of the first settings. -/
  array_source : ∀ values t s, Holds text t → IsList values t →
    (ofText text = .ok s ↔ ∃ texts, List.Forall₂ IsString texts values ∧ texts.length ≤ 19 ∧
      s = ofSource (.ofList ((Setting.all.map Setting.name).zip texts)))
  /-- Every other text fails. -/
  other : (∀ t, Holds text t → (∀ members, ¬ IsObject members t) ∧ ∀ values, ¬ IsList values t) →
    ¬ ∃ s, ofText text = .ok s
  /-- A text that fails is malformed. -/
  malformed : (¬ ∃ s, ofText text = .ok s) →
    ∃ fault, ofText text = .error (.malformed fault text)

theorem readAsSettings (text : String) : ReadAsSettings text where
  object_accepted members t htext ht := by
    constructor
    · rintro ⟨s, h⟩
      obtain ⟨pairs, hpairs, hnodup, -⟩ := (ofText_object htext ht).mp h
      exact ⟨hpairs.names ▸ hnodup, exists_areStrings_iff.mp ⟨pairs, hpairs⟩⟩
    · rintro ⟨hnodup, hstrings⟩
      obtain ⟨pairs, hpairs⟩ := exists_areStrings_iff.mpr hstrings
      exact ⟨_, (ofText_object htext ht).mpr ⟨pairs, hpairs, hpairs.names ▸ hnodup, rfl⟩⟩
  object_source members t s htext ht := ofText_object htext ht
  object_order members t text' members' t' s htext ht htext' ht' hperm :=
    ⟨ofText_object_congr htext ht htext' ht' hperm,
      ofText_object_congr htext' ht' htext ht hperm.symm⟩
  array_accepted values t htext ht := by
    constructor
    · rintro ⟨s, h⟩
      obtain ⟨texts, htexts, hlength, -⟩ := (ofText_array htext ht).mp h
      exact ⟨htexts.length_eq ▸ hlength, exists_texts_iff.mp ⟨texts, htexts⟩⟩
    · rintro ⟨hlength, hstrings⟩
      obtain ⟨texts, htexts⟩ := exists_texts_iff.mpr hstrings
      exact ⟨_, (ofText_array htext ht).mpr ⟨texts, htexts, htexts.length_eq ▸ hlength, rfl⟩⟩
  array_source values t s htext ht := ofText_array htext ht
  other hother := by
    rintro ⟨s, h⟩
    obtain ⟨given, hgiven, -⟩ := textGives_of_ofText h
    cases hgiven with
    | object htext ht _ _ => exact (hother _ htext).1 _ ht
    | array htext ht _ _ => exact (hother _ htext).2 _ ht
  malformed := ofText_error

end Settings

end LogShipper
