import LogShipper.Proofs.EffectiveView
import LogShipper.Proofs.SectionOrder

/-!
# The rules of the filters

A filter selects records by rules that each name a field and a pattern. The main document is
searched for the rules on a field, in whatever section they stand, and what is found is what the
settings say: the pattern alone, or else every exclusion that is not blank, in order and in one
section. A pattern would take precedence over exclusions, but no valid snapshot has both.
-/

namespace LogShipper

namespace Section

/-- The rules by which a section selects records: a directive and what stands behind it. -/
def selectionRules (sec : Section) : List (String × String) :=
  sec.entries.filter fun e => e.1 = "Regex" ∨ e.1 = "Exclude"

/-- A rule of the section is about the field. -/
def SelectsBy (field : String) (sec : Section) : Prop :=
  ∃ rule ∈ sec.selectionRules, (field ++ " ").toList <+: rule.2.toList

instance (field : String) : DecidablePred (SelectsBy field) :=
  fun sec => inferInstanceAs
    (Decidable (∃ rule ∈ sec.selectionRules, (field ++ " ").toList <+: rule.2.toList))

end Section

/-- The sections of a document with a rule about the field, each by all its rules. -/
def Compiled.rulesOn (c : Compiled) (field : String) : List (List (String × String)) :=
  (c.sections.filter fun sec => sec.SelectsBy field).map Section.selectionRules

/-! ## The rules of the parts -/

theorem Settings.directive_of_mem_rulesFor {s : Settings} {subject : Subject}
    {rule : String × String} (h : rule ∈ s.rulesFor subject) :
    rule.1 = "Regex" ∨ rule.1 = "Exclude" := by
  unfold rulesFor at h
  split at h
  · obtain rfl := List.mem_singleton.mp h
    exact Or.inl rfl
  · obtain ⟨p, -, rfl⟩ := List.mem_map.mp h
    exact Or.inr rfl

namespace Section

theorem selectionRules_grep {field : String} {rules : List (String × String)}
    (h : ∀ rule ∈ rules, rule.1 = "Regex" ∨ rule.1 = "Exclude") :
    (grepSection field rules).selectionRules =
      rules.map fun rule => (rule.1, field ++ " " ++ rule.2) := by
  rw [selectionRules, entries_grep, List.filter_cons_of_neg (by decide),
    List.filter_cons_of_neg (by decide), List.filter_eq_self]
  intro e he
  obtain ⟨rule, hrule, rfl⟩ := List.mem_map.mp he
  exact decide_eq_true (h rule hrule)

/-- A section has no entries under keys that it does not use. -/
theorem filter_entries_eq_nil {P : String → Prop} [DecidablePred P] {sec : Section}
    (h : ∀ key ∈ sec.entries.map Prod.fst, ¬ P key) :
    sec.entries.filter (fun e => P e.1) = [] := by
  rw [List.filter_eq_nil_iff]
  intro e he hkey
  exact h e.1 (List.mem_map_of_mem he) (of_decide_eq_true hkey)

/-- The keys of a filter are those of its first two entries and of what follows them. -/
theorem keys_filter_subset {name : String} {rest : List (String × String)} {words : List String}
    (h : ∀ e ∈ rest, e.1 ∈ words) :
    (("Name", name) :: ("Match", "*") :: rest).map Prod.fst ⊆ "Name" :: "Match" :: words := by
  apply List.cons_subset_cons
  apply List.cons_subset_cons
  intro key hkey
  obtain ⟨e, he, rfl⟩ := List.mem_map.mp hkey
  exact h e he

end Section

namespace MainPart

/-- The keys that can stand in a part. -/
def keys : MainPart → List String
  | .service => ["Parsers_File", "Flush", "Daemon", "Log_Level"]
  | .input =>
    ["Name", "Path", "Parser", "Tag", "read_from_head", "multiline.parser", "ignore_older"]
  | .metadata => ["Name", "Match", "script", "call"]
  | .lifting => ["Name", "Match", "Operation", "Nested_under"]
  | .filter _ => ["Name", "Match", "Regex", "Exclude"]
  | .rename => ["Name", "Match", "Rename"]
  | .additions => ["Name", "Match", "Add"]
  | .replacements => ["Name", "Match", "Set"]
  | .output => ["Name", "Match", "logzio_token", "logzio_url", "logzio_type", "id", "headers"]

open Section in
/-- No part uses other keys than its own. -/
theorem keys_content_subset (s : Settings) (p : MainPart) :
    (p.content s).entries.map Prod.fst ⊆ p.keys := by
  cases p with
  | service =>
      show ["Parsers_File", "Parsers_File", "Flush", "Daemon", "Log_Level"] ⊆ _
      decide
  | input =>
      rw [content, Blocks.entries_input]
      by_cases hjoins : s.joinsLines = true <;> by_cases hage : s.value .ignoreOlder = "" <;>
        simp [hjoins, hage, keys]
  | metadata => exact List.Subset.refl _
  | lifting => exact List.Subset.refl _
  | filter subject =>
      rw [content, entries_grep]
      apply keys_filter_subset
      intro e he
      obtain ⟨rule, hrule, rfl⟩ := List.mem_map.mp he
      simpa using s.directive_of_mem_rulesFor hrule
  | rename => exact List.Subset.refl _
  | additions =>
      rw [content, entries_modify]
      exact keys_filter_subset fun e he =>
        List.mem_singleton.mpr (fst_of_mem_map_mk he)
  | replacements =>
      rw [content, entries_modify]
      exact keys_filter_subset fun e he =>
        List.mem_singleton.mpr (fst_of_mem_map_mk he)
  | output =>
      rw [content, Blocks.entries_output]
      by_cases hheaders : s.value .headers = "" <;> simp [hheaders, keys]

/-- A part has no entries under keys that are not its own. -/
theorem filter_entries_content {P : String → Prop} [DecidablePred P] (s : Settings) {p : MainPart}
    (h : ∀ key ∈ p.keys, ¬ P key) : (p.content s).entries.filter (fun e => P e.1) = [] :=
  Section.filter_entries_eq_nil fun key hkey => h key (keys_content_subset s p hkey)

/-- The rules of a part. Only filters have any. -/
def rules (s : Settings) : MainPart → List (String × String)
  | .filter subject =>
    (s.rulesFor subject).map fun rule => (rule.1, subject.field ++ " " ++ rule.2)
  | _ => []

theorem selectionRules_content (s : Settings) (p : MainPart) :
    (p.content s).selectionRules = p.rules s := by
  cases p with
  | filter subject => exact Section.selectionRules_grep fun _ => s.directive_of_mem_rulesFor
  | _ =>
      exact filter_entries_content (P := fun key => key = "Regex" ∨ key = "Exclude") s (by decide)

end MainPart

/-! ## The rules on a field -/

/-- No field is the beginning of another, up to the blank behind it. -/
theorem Subject.field_prefix_iff {a b : Subject} {pattern : String} :
    (a.field ++ " ").toList <+: (b.field ++ " " ++ pattern).toList ↔ a = b := by
  have hlead : (Slot.exclusion a).lead.toList <+:
      ((Slot.exclusion b).lead ++ pattern).toList ↔ Slot.exclusion a = .exclusion b :=
    Slot.lead_prefix_append_iff
  simp only [Slot.lead, String.toList_append, List.append_assoc, List.prefix_append_right_inj,
    Slot.exclusion.injEq] at hlead
  simpa only [String.toList_append, List.append_assoc] using hlead

/-- Among the parts that are due, the filter of a subject alone has rules on its field. -/
theorem MainPart.selectsBy_content_iff {s : Settings} {subject : Subject} {p : MainPart}
    (hdue : Due s p) : (p.content s).SelectsBy subject.field ↔ p = .filter subject := by
  unfold Section.SelectsBy
  rw [selectionRules_content]
  constructor
  · rintro ⟨rule, hrule, hfield⟩
    cases p with
    | filter other =>
        obtain ⟨rule, -, rfl⟩ := List.mem_map.mp hrule
        rw [Subject.field_prefix_iff.mp hfield]
    | _ => exact absurd hrule List.not_mem_nil
  · rintro rfl
    -- A filter is due only when there is a rule for it.
    obtain ⟨rule, hrule⟩ := List.exists_mem_of_ne_nil _ ((s.rulesFor_ne_nil_iff subject).mpr hdue)
    exact ⟨_, List.mem_map_of_mem hrule, Subject.field_prefix_iff.mpr rfl⟩

/-- The rules that a document has on a field are those of the settings, in one section. -/
theorem Settings.rulesOn_field (s : Settings) (subject : Subject) :
    s.documents.rulesOn subject.field =
      if s.rulesFor subject = [] then [] else [(MainPart.filter subject).rules s] := by
  have hsections : s.documents.sections.filter (fun sec => sec.SelectsBy subject.field) =
      (s.filter? subject).toList := by
    rw [toList_filter?, show s.documents.sections = s.sections from rfl, sections_eq_due]
    exact MainPart.filter_due_order fun _ => MainPart.selectsBy_content_iff
  rw [Compiled.rulesOn, hsections, filter?_eq_ite]
  by_cases h : s.rulesFor subject = []
  · rw [if_pos h, if_pos h]
    rfl
  · rw [if_neg h, if_neg h, ← MainPart.selectionRules_content]
    rfl

/-- **No rule is lost, shadowed, repeated or reordered.** For each subject a valid snapshot is
compiled to its pattern as the only rule, or else to its exclusions in one section, or to no rule
when there is neither; and whatever exclusions are given are among the rules. -/
theorem rulesOn_compiled {s : Settings} {c : Compiled} (h : s.compile = .ok c)
    (subject : Subject) :
    (s.value subject.matchSetting ≠ "" →
      c.rulesOn subject.field =
        [[("Regex", subject.field ++ " " ++ Text.trimmed (s.value subject.matchSetting))]]) ∧
    (s.value subject.matchSetting = "" →
      c.rulesOn subject.field =
        if Settings.exclusions (s.value subject.skipSetting) = [] then []
        else [(Settings.exclusions (s.value subject.skipSetting)).map fun pattern =>
          ("Exclude", subject.field ++ " " ++ pattern)]) ∧
    (s.value subject.skipSetting ≠ "" →
      ∀ piece ∈ Text.splitPieces ',' (s.value subject.skipSetting),
        ¬ piece.toList.all Text.isBlank = true →
          ∃ rules ∈ c.rulesOn subject.field,
            ("Exclude", subject.field ++ " " ++ Text.trimmed piece) ∈ rules) := by
  obtain ⟨hvalid, rfl⟩ := Settings.compile_eq_ok_iff.mp h
  have hexclusions : s.value subject.matchSetting = "" →
      s.documents.rulesOn subject.field =
        if Settings.exclusions (s.value subject.skipSetting) = [] then []
        else [(Settings.exclusions (s.value subject.skipSetting)).map fun pattern =>
          ("Exclude", subject.field ++ " " ++ pattern)] := by
    intro hmatch
    rw [s.rulesOn_field, MainPart.rules, Settings.rulesFor, if_neg (not_not_intro hmatch),
      List.map_map]
    simp only [List.map_eq_nil_iff]
    rfl
  refine ⟨?_, hexclusions, ?_⟩
  · intro hmatch
    rw [s.rulesOn_field, MainPart.rules, Settings.rulesFor, if_pos hmatch,
      if_neg (List.cons_ne_nil _ _)]
    rfl
  · intro hskip piece hpiece hblank
    have hmatch : s.value subject.matchSetting = "" := by
      by_contra hmatch
      exact s.violations_eq_nil_iff.mp hvalid subject ⟨hmatch, hskip⟩
    have hmem : Text.trimmed piece ∈ Settings.exclusions (s.value subject.skipSetting) :=
      List.mem_map_of_mem (List.mem_filter.mpr ⟨hpiece, decide_eq_true hblank⟩)
    rw [hexclusions hmatch, if_neg (List.ne_nil_of_mem hmem)]
    exact ⟨_, List.mem_singleton_self _, List.mem_map_of_mem hmem⟩

/-- A pattern, exclusions with a blank piece, and exclusions that are all blank. -/
def threeFilters : Settings :=
  .ofSource (.ofList [("MATCH_CONTAINER_NAME", " web "), ("SKIP_IMAGE_NAMES", "redis, ,db "),
    ("EXCLUDE_LINES", " , ")])

theorem rulesOn_threeFilters :
    threeFilters.compile = .ok threeFilters.documents ∧
      threeFilters.documents.rulesOn "docker_container_name" =
        [[("Regex", "docker_container_name web")]] ∧
      threeFilters.documents.rulesOn "docker_container_image" =
        [[("Exclude", "docker_container_image redis"), ("Exclude", "docker_container_image db")]] ∧
      threeFilters.documents.rulesOn "message" = [] ∧
      ∃ rules ∈ threeFilters.documents.rulesOn "docker_container_image",
        ("Exclude", "docker_container_image db") ∈ rules := by
  have hvalid : threeFilters.compile = .ok threeFilters.documents :=
    Settings.compile_of_valid (by decide)
  obtain ⟨hpattern, -, -⟩ := rulesOn_compiled hvalid .containerName
  obtain ⟨-, himages, hgiven⟩ := rulesOn_compiled hvalid .imageName
  obtain ⟨-, hlines, -⟩ := rulesOn_compiled hvalid .logLine
  refine ⟨hvalid, hpattern (by decide), himages (by decide), hlines (by decide), ?_⟩
  exact hgiven (by decide) "db " (by decide) (by decide)

end LogShipper
