import LogShipper.Proofs.SettingsGrammar

/-!
# Layers of settings

A loaded snapshot is decided name by name: the source counts before the file, the file before the
default, and a value that is given counts even when it is empty. Names outside the catalogue decide
nothing and have no value.
-/

namespace LogShipper.Settings

/-- The recognised names with their defaults, as they are documented. -/
def catalogue : List (String × String) :=
  [("LOG_LEVEL", "info"), ("READ_FROM_HEAD", "true"), ("IGNORE_OLDER", ""),
    ("MATCH_CONTAINER_NAME", ""), ("SKIP_CONTAINER_NAMES", ""), ("MATCH_IMAGE_NAME", ""),
    ("SKIP_IMAGE_NAMES", ""), ("INCLUDE_LINE", ""), ("EXCLUDE_LINES", ""),
    ("ADDITIONAL_FIELDS", ""), ("SET_FIELDS", ""),
    ("LOGZIO_LOGS_TOKEN", "your_logzio_logs_token"),
    ("LOGZIO_URL", "https://listener.logz.io:8071"), ("LOGZIO_TYPE", "logzio-docker-logs"),
    ("OUTPUT_ID", "output_id"), ("HEADERS", ""), ("MULTILINE_START_STATE_RULE", ""),
    ("MULTILINE_CUSTOM_RULES", ""), ("LOGS_PATH", "/var/lib/docker/containers/*/*.log")]

/-- The default of a recognised name. -/
def default? : Source :=
  .ofList catalogue

/-- What a settings file gives: nothing if there is none, or what the text in it gives. -/
inductive FileGives (d : Disk) : Option String → Source → Prop where
  | none : FileGives d none .empty
  | file {path : String} {bytes : ByteArray} {text : String} {given : Source}
      (hread : d.read (.ofString path) = .ok bytes) (htext : String.fromUTF8? bytes = some text)
      (h : TextGives text given) : FileGives d (some path) given

/-! ## Tables of names -/

theorem ofList_entries (s : Settings) : Source.ofList s.entries = s.valueOf? := by
  funext n
  unfold Source.ofList entries valueOf? Setting.ofName?
  rw [List.find?_map, Option.map_map]
  rfl

theorem map_fst_entries (s : Settings) : s.entries.map Prod.fst = Setting.all.map Setting.name := by
  rw [entries, List.map_map]
  rfl

theorem entries_presets : presets.entries = catalogue :=
  rfl

theorem default?_eq (n : String) : default? n = (Setting.ofName? n).map Setting.preset := by
  rw [default?, ← entries_presets, ofList_entries]
  rfl

theorem nodup_names : (Setting.all.map Setting.name).Nodup := by
  decide

theorem mem_entries_iff {s : Settings} {n v : String} :
    (n, v) ∈ s.entries ↔ s.valueOf? n = some v := by
  constructor
  · intro h
    obtain ⟨k, -, hk⟩ := List.mem_map.mp h
    cases hk
    exact valueOf?_name s k
  · intro h
    obtain ⟨k, hk, rfl⟩ := Option.map_eq_some_iff.mp h
    rw [← Setting.name_of_ofName? hk]
    exact List.mem_map_of_mem (Setting.mem_all k)

theorem eq_of_valueOf?_eq {s t : Settings} (h : ∀ n, s.valueOf? n = t.valueOf? n) : s = t := by
  apply Settings.ext
  intro k
  have hk := h k.name
  rw [valueOf?_name, valueOf?_name] at hk
  exact Option.some.inj hk

/-! ## Loading -/

theorem valueOf?_overlay_ofSource (source given : Source) (n : String) :
    ((ofSource given).overlay source).valueOf? n =
      (default? n).map fun preset => ((source n).or (given n)).getD preset := by
  rw [default?_eq, valueOf?]
  cases hname : Setting.ofName? n with
  | none => rfl
  | some k =>
      have hn := Setting.name_of_ofName? hname
      subst hn
      simp only [Option.map_some, ofSource, value_overlay]
      cases source k.name <;> rfl

theorem ofFile_eq_ok_iff {path : String} {content : Except OsFault ByteArray} {s : Settings} :
    ofFile path content = .ok s ↔
      ∃ bytes text, content = .ok bytes ∧ String.fromUTF8? bytes = some text ∧
        ofText text = .ok s := by
  cases content with
  | error fault => cases fault <;> simp [ofFile]
  | ok bytes =>
      cases htext : String.fromUTF8? bytes with
      | none => simp [ofFile, htext]
      | some text => simp [ofFile, htext]

theorem loadFrom_none (d : Disk) (source : Source) :
    loadFrom d none source = .ok (ofSource source) :=
  rfl

theorem loadFrom_some (d : Disk) (path : String) (source : Source) :
    loadFrom d (some path) source =
      (ofFile path (d.read (.ofString path))).map fun s => s.overlay source := by
  unfold loadFrom load
  cases h : ofFile path (d.read (.ofString path)) <;> simp [h] <;> rfl

theorem loadFrom_eq_ok_iff {d : Disk} {file? : Option String} {source : Source} {s : Settings} :
    loadFrom d file? source = .ok s ↔
      ∃ given, FileGives d file? given ∧ s = (ofSource given).overlay source := by
  cases file? with
  | none =>
      rw [loadFrom_none]
      constructor
      · intro h
        cases h
        exact ⟨_, .none, rfl⟩
      · rintro ⟨given, ⟨⟩, rfl⟩
        rfl
  | some path =>
      rw [loadFrom_some]
      constructor
      · intro h
        cases hfile : ofFile path (d.read (.ofString path)) with
        | error fault =>
            rw [hfile] at h
            cases h
        | ok t =>
            rw [hfile] at h
            cases h
            obtain ⟨bytes, text, hread, htext, ht⟩ := ofFile_eq_ok_iff.mp hfile
            obtain ⟨given, hgiven, rfl⟩ := ofText_eq_ok_iff.mp ht
            exact ⟨given, .file hread htext hgiven, rfl⟩
      · rintro ⟨given, hfile, rfl⟩
        cases hfile with
        | file hread htext hgiven =>
            have ht := ofText_eq_ok_iff.mpr ⟨given, hgiven, rfl⟩
            rw [ofFile_eq_ok_iff.mpr ⟨_, _, hread, htext, ht⟩]
            rfl

theorem loadFrom_congr (d : Disk) (file? : Option String) {source source' : Source}
    (h : ∀ k : Setting, source k.name = source' k.name) :
    loadFrom d file? source = loadFrom d file? source' := by
  have hoverlay : ∀ s : Settings, s.overlay source = s.overlay source' := fun s => overlay_congr h
  cases file? with
  | none => rw [loadFrom_none, loadFrom_none, ofSource, ofSource, hoverlay]
  | some path => simp only [loadFrom_some, hoverlay]

/-- Whatever lies below, a snapshot laid over it is that snapshot. -/
theorem overlay_ofList_entries (s t : Settings) : t.overlay (.ofList s.entries) = s := by
  ext1 k
  rw [value_overlay, ofList_entries, valueOf?_name]
  rfl

/-- What loading does to every name. -/
structure Layered (d : Disk) (file? : Option String) (source : Source) : Prop where
  /-- The source counts before the file, the file before the default, and other names have no
  value. -/
  loaded : ∀ s, loadFrom d file? source = .ok s ↔
    ∃ given, FileGives d file? given ∧
      ∀ n, s.valueOf? n = (default? n).map fun preset => ((source n).or (given n)).getD preset
  /-- The entries are the recognised names, once each, with the same values. -/
  entries : ∀ s : Settings, s.entries.map Prod.fst = catalogue.map Prod.fst ∧
    (s.entries.map Prod.fst).Nodup ∧ ∀ n v, (n, v) ∈ s.entries ↔ s.valueOf? n = some v
  /-- From its own entries a snapshot is loaded again. -/
  reloaded : ∀ s : Settings, loadFrom d none (.ofList s.entries) = .ok s ∧
    ∀ t, loadFrom d file? (.ofList s.entries) = .ok t → t = s
  /-- Only recognised names are looked up. -/
  recognised : ∀ source' : Source, (∀ n, (default? n).isSome → source n = source' n) →
    loadFrom d file? source = loadFrom d file? source'

theorem layered (d : Disk) (file? : Option String) (source : Source) :
    Layered d file? source where
  loaded s := by
    rw [loadFrom_eq_ok_iff]
    constructor
    · rintro ⟨given, hgiven, rfl⟩
      exact ⟨given, hgiven, valueOf?_overlay_ofSource source given⟩
    · rintro ⟨given, hgiven, hvalue⟩
      refine ⟨given, hgiven, eq_of_valueOf?_eq fun n => ?_⟩
      rw [hvalue, valueOf?_overlay_ofSource]
  entries s := by
    refine ⟨?_, ?_, fun n v => mem_entries_iff⟩
    · rw [← entries_presets, map_fst_entries, map_fst_entries]
    · rw [map_fst_entries]
      exact nodup_names
  reloaded s := by
    constructor
    · rw [loadFrom_none, ofSource, overlay_ofList_entries]
    · intro t ht
      obtain ⟨given, -, rfl⟩ := loadFrom_eq_ok_iff.mp ht
      exact overlay_ofList_entries s _
  recognised source' h := by
    apply loadFrom_congr
    intro k
    apply h
    rw [default?_eq, Setting.ofName?_name]
    rfl

end LogShipper.Settings
