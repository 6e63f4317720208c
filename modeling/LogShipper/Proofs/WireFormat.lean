import LogShipper.Document.Joining
import LogShipper.Exclusivity
import LogShipper.Proofs.Json.Fits
import LogShipper.Proofs.Layers
import LogShipper.Proofs.Timestamps
import LogShipper.Run.Fault
import LogShipper.Run.Report

/-!
# Records that are read back

What is written of a value is read as that value: its compact text, its canonical text, and for a
record any text that gives its fields, in any order and among unknown members. So a canonical text
belongs to one snapshot only, and a digest that belongs to two is that of two texts.
-/

namespace LogShipper

open Json (Says Fits Holds IsObject Shape fieldNamed? knownMembers)

/-! ## Reading back -/

section

variable {α : Type} [JsonForm α] {x : α}

/-- A value that is read back from what is written of it. -/
structure Faithful (x : α) : Prop where
  /-- The compact text is read as the value. -/
  compact : JsonForm.decode (JsonForm.encode x) = .ok x
  /-- The canonical text is read as the value. -/
  canonical : JsonForm.decode (JsonForm.canonical x) = .ok x
  /-- A text of an object whose known members say the fields of the record, in any order, is read as
  the value, whatever its other members are. -/
  reordered : ∀ name fields members, JsonForm.shape α = .record name fields →
    JsonForm.toJson x = .object members → ∀ text t given pairs, Holds text t → IsObject given t →
    List.Forall₂ (fun m p => m.1 = p.1 ∧ ∀ f, fieldNamed? fields m.1 = some f →
      Says f.content m.2 p.2) (knownMembers fields given) pairs →
    pairs.Perm members → JsonForm.decode text = .ok x

theorem decode_eq_of_spelling (hback : JsonForm.ofJson? (JsonForm.toJson x) = some x)
    {text : String} {t : List Char} (htext : Holds text t)
    (ht : Says (JsonForm.shape α) t (JsonForm.toJson x)) : JsonForm.decode text = .ok x := by
  rw [JsonForm.decode, Json.Shape.parse, Json.readAll_of_reads htext ht.reads, Json.ok_bind]
  simp only [hback]

theorem faithful_of_fits (hfits : Fits (JsonForm.shape α) (JsonForm.toJson x))
    (hback : JsonForm.ofJson? (JsonForm.toJson x) = some x) : Faithful x where
  compact := by
    -- The compact text is the case where nothing is reordered.
    have hsame := (hfits.distinct.same_iff hfits.distinct).mpr rfl
    exact decode_eq_of_spelling hback (Json.holds_ofList _) (Json.says_of_fits hfits hsame)
  canonical :=
    decode_eq_of_spelling hback (Json.holds_ofList _)
      (Json.says_of_fits hfits hfits.distinct.same_sorted)
  reordered name fields members hshape hmembers text t given pairs htext ht hpairs hperm := by
    refine decode_eq_of_spelling hback htext ?_
    rw [hshape, hmembers] at hfits ⊢
    cases hfits with
    | record hnames hnodup _ => exact Json.says_record hnames hnodup ht hpairs hperm

end

/-! ## The records -/

theorem mapM_ofJson? {α : Type} [JsonForm α] {xs : List α}
    (h : ∀ x ∈ xs, JsonForm.ofJson? (JsonForm.toJson x) = some x) :
    (xs.map JsonForm.toJson).mapM JsonForm.ofJson? = some xs := by
  induction xs with
  | nil => rfl
  | cons x xs ih =>
      obtain ⟨hx, hxs⟩ := List.forall_mem_cons.mp h
      rw [List.map_cons, List.mapM_cons, hx, ih hxs]
      rfl

theorem Settings.fits_toJson (s : Settings) :
    Fits (JsonForm.shape Settings) (JsonForm.toJson s) := by
  have hnames : (Setting.all.map fun k => (⟨k.name, Shape.text, .omitted⟩ : Json.Field Shape)).map
      Json.Field.name = Setting.all.map Setting.name := by
    rw [List.map_map]
    rfl
  refine Json.fits_record (hnames ▸ Settings.nodup_names) ?_
  rw [Settings.entries, List.map_map, List.forall₂_map_left_iff, List.forall₂_map_right_iff]
  exact List.forall₂_same.mpr fun k _ => ⟨rfl, .text _⟩

theorem Settings.ofJson?_toJson (s : Settings) :
    JsonForm.ofJson? (JsonForm.toJson s) = some s := by
  have hsource : Settings.sourceOfMembers (Settings.strings s.entries) = .ofList s.entries :=
    Settings.sourceOfMembers_strings s.entries
  show some (Settings.presets.overlay (Settings.sourceOfMembers (Settings.strings s.entries))) = _
  rw [hsource, Settings.overlay_ofList_entries]

theorem Section.Kind.faithful (k : Section.Kind) : Faithful k := by
  have hword : k.word ∈ Section.Kind.all.map Section.Kind.word := by
    cases k <;> decide
  refine faithful_of_fits (.choice hword) ?_
  cases k <;> rfl

theorem PluginAbsence.faithful (a : PluginAbsence) : Faithful a := by
  have hword : a.word ∈ PluginAbsence.all.map PluginAbsence.word := by
    cases a <;> decide
  refine faithful_of_fits (.choice hword) ?_
  cases a <;> rfl

theorem JoiningRule.faithful (r : JoiningRule) : Faithful r := by
  obtain ⟨state, pattern, next?⟩ := r
  have hnext : Fits (.nullable .text) ((next?.map Json.string).getD .null) := by
    cases next? with
    | none => exact .null
    | some next => exact .some (.text next) (by simp)
  refine faithful_of_fits (Json.fits_record (by decide) ?_) ?_
  · exact .cons ⟨rfl, .text state⟩ (.cons ⟨rfl, .text pattern⟩ (.cons ⟨rfl, hnext⟩ .nil))
  · cases next? <;> rfl

theorem SkippedPiece.fits_toJson (p : SkippedPiece) :
    Fits (JsonForm.shape SkippedPiece) (JsonForm.toJson p) :=
  Json.fits_record (by decide)
    (.cons ⟨rfl, .text _⟩ (.cons ⟨rfl, .text _⟩ (.cons ⟨rfl, .text _⟩ .nil)))

theorem SkippedPiece.ofJson?_toJson (p : SkippedPiece) :
    JsonForm.ofJson? (JsonForm.toJson p) = some p :=
  rfl

theorem Violation.fits_toJson (v : Violation) :
    Fits (JsonForm.shape Violation) (JsonForm.toJson v) :=
  Json.fits_record (by decide)
    (.cons ⟨rfl, .text _⟩ (.cons ⟨rfl, .pair (.text _) (.text _)⟩ (.cons ⟨rfl, .text _⟩ .nil)))

theorem Violation.ofJson?_toJson (v : Violation) :
    JsonForm.ofJson? (JsonForm.toJson v) = some v :=
  rfl

theorem Verdict.faithful (v : Verdict) : Faithful v := by
  have hviolations : Fits (.list (JsonForm.shape Violation))
      (.array (v.violations.map JsonForm.toJson)) :=
    .list (List.forall_mem_map.mpr fun w _ => w.fits_toJson)
  refine faithful_of_fits (Json.fits_record (by decide) ?_) ?_
  · exact .cons ⟨rfl, .flag v.valid⟩ (.cons ⟨rfl, hviolations⟩ .nil)
  · have hback : (v.violations.map JsonForm.toJson).mapM JsonForm.ofJson? = some v.violations :=
      mapM_ofJson? fun w _ => w.ofJson?_toJson
    show (do return { valid := v.valid, violations := ← _ } : Option Verdict) = _
    rw [hback]
    rfl

theorem WrittenDocument.fits_toJson {d : WrittenDocument} (h : d.bytes ≤ 18446744073709551615) :
    Fits (JsonForm.shape WrittenDocument) (JsonForm.toJson d) := by
  have hbytes : Json.IsWord d.bytes := ⟨by omega, by omega⟩
  exact Json.fits_record (by decide)
    (.cons ⟨rfl, .text _⟩ (.cons ⟨rfl, .count hbytes⟩ (.cons ⟨rfl, .text _⟩ .nil)))

theorem WrittenDocument.ofJson?_toJson (d : WrittenDocument) :
    JsonForm.ofJson? (JsonForm.toJson d) = some d :=
  rfl

theorem Report.faithful {r : Report} (htime : r.generatedAt.IsPlain)
    (hbytes : ∀ d ∈ r.written, d.bytes ≤ 18446744073709551615) : Faithful r := by
  have hwritten : Fits (.list (JsonForm.shape WrittenDocument))
      (.array (r.written.map JsonForm.toJson)) :=
    .list (List.forall_mem_map.mpr fun d hd => WrittenDocument.fits_toJson (hbytes d hd))
  have hskipped : Fits (.list (JsonForm.shape SkippedPiece))
      (.array (r.skipped.map JsonForm.toJson)) :=
    .list (List.forall_mem_map.mpr fun p _ => p.fits_toJson)
  refine faithful_of_fits (Json.fits_record (by decide) ?_) ?_
  · exact .cons ⟨rfl, .text _⟩ (.cons ⟨rfl, .checked (Calendar.Instant.complaint?_toText htime)⟩
      (.cons ⟨rfl, .text _⟩ (.cons ⟨rfl, hwritten⟩ (.cons ⟨rfl, hskipped⟩ .nil))))
  · have hwritten' : (r.written.map JsonForm.toJson).mapM JsonForm.ofJson? = some r.written :=
      mapM_ofJson? fun d _ => d.ofJson?_toJson
    have hskipped' : (r.skipped.map JsonForm.toJson).mapM JsonForm.ofJson? = some r.skipped :=
      mapM_ofJson? fun p _ => p.ofJson?_toJson
    simp only [JsonForm.toJson, JsonForm.ofJson?] at hwritten' hskipped' ⊢
    rw [Calendar.Instant.parse_toText htime, hwritten', hskipped']
    rfl

/-! ## The wire format -/

/-- Decoding undoes encoding for every record. -/
structure WireFormat : Prop where
  settings : ∀ s : Settings, Faithful s
  sectionKind : ∀ k : Section.Kind, Faithful k
  joiningRule : ∀ r : JoiningRule, Faithful r
  violation : ∀ v : Violation, Faithful v
  verdict : ∀ v : Verdict, Faithful v
  skippedPiece : ∀ p : SkippedPiece, Faithful p
  pluginAbsence : ∀ a : PluginAbsence, Faithful a
  writtenDocument : ∀ d : WrittenDocument, d.bytes ≤ 18446744073709551615 → Faithful d
  report : ∀ r : Report, r.generatedAt.IsPlain →
    (∀ d ∈ r.written, d.bytes ≤ 18446744073709551615) → Faithful r
  /-- A canonical text belongs to one snapshot. -/
  canonical_injective : ∀ s t : Settings,
    JsonForm.canonical s = JsonForm.canonical t → s = t
  /-- Where two snapshots have one fingerprint, two texts have one digest. -/
  fingerprint_collision : ∀ s t : Settings, s ≠ t → s.fingerprint = t.fingerprint →
    ∃ a b : String, a ≠ b ∧ Digest.sha256Text a = Digest.sha256Text b ∧
      a = JsonForm.canonical s ∧ b = JsonForm.canonical t

theorem Settings.faithful (s : Settings) : Faithful s :=
  faithful_of_fits s.fits_toJson s.ofJson?_toJson

theorem Settings.canonical_injective {s t : Settings}
    (h : JsonForm.canonical s = JsonForm.canonical t) : s = t := by
  have hs := s.faithful.canonical
  rw [h, t.faithful.canonical] at hs
  exact (Except.ok.inj hs).symm

theorem wireFormat : WireFormat where
  settings := Settings.faithful
  sectionKind := Section.Kind.faithful
  joiningRule := JoiningRule.faithful
  violation v := faithful_of_fits v.fits_toJson v.ofJson?_toJson
  verdict := Verdict.faithful
  skippedPiece p := faithful_of_fits p.fits_toJson p.ofJson?_toJson
  pluginAbsence := PluginAbsence.faithful
  writtenDocument d hd := faithful_of_fits (d.fits_toJson hd) d.ofJson?_toJson
  report _ htime hbytes := Report.faithful htime hbytes
  canonical_injective _ _ := Settings.canonical_injective
  fingerprint_collision _ _ hne hsame :=
    ⟨_, _, fun h => hne (Settings.canonical_injective h), hsame, rfl, rfl⟩

end LogShipper
