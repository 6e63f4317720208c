import LogShipper.Proofs.AnyHost
import LogShipper.Proofs.JoiningDocument
import LogShipper.Proofs.SectionOrder

/-!
# One parser in two documents

The main document refers to the parser of joined lines by its name, and the other document defines
it. Each is made from the settings without a look at the other. Still the reference is there exactly
when the definition is, and it is to the parser that is defined.
-/

namespace LogShipper

namespace Section

/-- The section has an entry with that key. -/
def HasKey (sec : Section) (key : String) : Prop :=
  ∃ value, (key, value) ∈ sec.entries

theorem get?_eq_some_of_entries_eq {sec : Section} {key value : String}
    {before after : List (String × String)}
    (h : sec.entries = before ++ (key, value) :: after) (hbefore : ∀ e ∈ before, e.1 ≠ key) :
    sec.get? key = some value := by
  have hnone : before.find? (fun e => decide (e.1 = key)) = none :=
    List.find?_eq_none.mpr fun e he => by simpa using hbefore e he
  rw [get?, h, List.find?_append, hnone, Option.none_or, List.find?_cons_of_pos (by simp)]
  rfl

end Section

/-- What the section `input` of the main document says about joined lines is what the other
document defines. -/
structure JoiningAgreement (s : Settings) (c : Compiled) (input : Section) : Prop where
  reference_iff : input.HasKey "multiline.parser" ↔ c.joining?.isSome = true
  start_iff : input.HasKey "read_from_head" ↔ c.joining?.isSome = true
  rules_iff : s.joiningRules ≠ [] ↔ c.joining?.isSome = true
  /-- This is about every run that succeeds, whatever its host is. -/
  written_iff : ∀ {σ : Type} (host : Host (StateM σ)) (targets : Targets) (st : σ)
    (report : Report), (runFrom (host.generate s targets) st).1 = .ok report →
      (report.written.length = 2 ↔ c.joining?.isSome = true)
  /-- The name in the reference is the name in the definition. Where reading starts stands in front
  of the reference, as it is given, and there is one of both. -/
  resolved : c.joining?.isSome = true → ∃ name parser before after,
    s.joiningSection? = some parser ∧ c.joining? = some parser.render ∧
    parser.get? "name" = some name ∧ input.get? "multiline.parser" = some name ∧
    input.entries = before ++ ("read_from_head", s.value .readFromHead) ::
      ("multiline.parser", name) :: after ∧
    ∀ e ∈ before ++ after, e.1 ≠ "read_from_head" ∧ e.1 ≠ "multiline.parser"
  /-- The definition has three entries, then comments, then a line for each rule. -/
  lines : ∀ parser, s.joiningSection? = some parser → ∃ entries comments,
    parser.lines = entries ++ comments ++ s.joiningRules.map (fun r => .verbatim r.render) ∧
    entries.length = 3 ∧ (∀ l ∈ entries, l.keyValue?.isSome = true) ∧
    ∀ l ∈ comments, ∃ text, l = .comment text

/-! ## The section that says what is read -/

theorem MainPart.kind_content_eq_input_iff (s : Settings) (p : MainPart) :
    (p.content s).kind = .input ↔ p = .input := by
  cases p with
  | input =>
      rw [content, Blocks.input_eq]
      simp
  | output =>
      rw [content, Blocks.output_eq]
      simp
  | _ => simp [content, Blocks.service, Blocks.metadata, Blocks.lifting, grepSection,
      modifySection, Section.new, Section.aligned, Section.entry, Section.append]

theorem Settings.filter_kind_sections (s : Settings) :
    s.sections.filter (fun sec => sec.kind = .input) = [Blocks.input s] := by
  rw [sections_eq_due, MainPart.filter_due_order fun q _ => q.kind_content_eq_input_iff s,
    MainPart.due_singleton]
  rfl

theorem Settings.joinsLines_iff (s : Settings) : s.joinsLines = true ↔ s.joiningRules ≠ [] := by
  rw [joinsLines, decide_eq_true_iff, ne_eq, ne_eq, joiningRules_eq_nil_iff]

theorem Settings.isSome_joining?_iff (s : Settings) :
    s.documents.joining?.isSome = true ↔ s.joiningRules ≠ [] := by
  rw [joining?_eq_ite]
  by_cases h : s.joiningRules = [] <;> simp [h]

namespace Blocks

theorem hasKey_input_iff (s : Settings) {key : String}
    (hkey : key = "read_from_head" ∨ key = "multiline.parser") :
    (input s).HasKey key ↔ s.joiningRules ≠ [] := by
  unfold Section.HasKey
  rw [entries_input, ← s.joinsLines_iff]
  by_cases hjoins : s.joinsLines = true
  · rw [if_pos hjoins]
    rcases hkey with rfl | rfl <;> simp [hjoins]
  · rw [if_neg hjoins]
    by_cases hage : s.value .ignoreOlder = "" <;> rcases hkey with rfl | rfl <;> simp [hjoins, hage]

/-- With joined lines the reference stands behind the place where reading starts. -/
theorem exists_entries_input_eq {s : Settings} (h : s.joiningRules ≠ []) :
    ∃ before after, (input s).entries = before ++ ("read_from_head", s.value .readFromHead) ::
        ("multiline.parser", JoiningRule.parserName) :: after ∧
      ∀ e ∈ before ++ after, e.1 ≠ "read_from_head" ∧ e.1 ≠ "multiline.parser" := by
  refine ⟨[("Name", "tail"), ("Path", s.value .logsPath), ("Parser", lineParser),
    ("Tag", recordTag)], if s.value .ignoreOlder = "" then [] else
      [("ignore_older", s.value .ignoreOlder)], ?_, ?_⟩
  · rw [entries_input, if_pos (s.joinsLines_iff.mpr h)]
    rfl
  · by_cases hage : s.value .ignoreOlder = "" <;> simp [hage]

end Blocks

/-! ## The definition -/

theorem JoiningRule.get?_name_parserSection (rules : List JoiningRule) :
    (parserSection rules).get? "name" = some parserName := by
  have hentries : (parserSection rules).entries = [] ++ ("name", parserName) ::
      [("type", "regex"), ("flush_timeout", "1000")] := by
    rw [parserSection_eq]
    simp [Section.entries, hints, Line.keyValue?, parserName]
  exact Section.get?_eq_some_of_entries_eq hentries (fun _ he => absurd he List.not_mem_nil)

/-! ## Runs -/

theorem Compiled.length_placed_eq_two_iff (c : Compiled) (targets : Targets) :
    (c.placed targets).length = 2 ↔ c.joining?.isSome = true := by
  unfold placed
  cases c.joining? <;> simp

theorem length_written_eq_two_iff {s : Settings} {c : Compiled} (hc : s.compile = .ok c)
    {σ : Type} (host : Host (StateM σ)) {targets : Targets} {st : σ} {report : Report}
    (hreport : (runFrom (host.generate s targets) st).1 = .ok report) :
    report.written.length = 2 ↔ c.joining?.isSome = true := by
  have hending := ending_generate host s targets st
  rw [hreport] at hending
  cases hending with
  | done hcompile time =>
      rw [hc] at hcompile
      obtain rfl := Except.ok.inj hcompile
      rw [← c.length_placed_eq_two_iff targets, Settings.reportOf, List.length_map]

theorem Settings.joiningAgreement_input {s : Settings} (hvalid : s.violations = []) :
    JoiningAgreement s s.documents (Blocks.input s) where
  reference_iff := (Blocks.hasKey_input_iff s (Or.inr rfl)).trans s.isSome_joining?_iff.symm
  start_iff := (Blocks.hasKey_input_iff s (Or.inl rfl)).trans s.isSome_joining?_iff.symm
  rules_iff := s.isSome_joining?_iff.symm
  written_iff host _ _ _ hreport := length_written_eq_two_iff (compile_of_valid hvalid) host hreport
  resolved hjoining := by
    have hrules := s.isSome_joining?_iff.mp hjoining
    obtain ⟨before, after, hentries, hothers⟩ := Blocks.exists_entries_input_eq hrules
    refine ⟨JoiningRule.parserName, JoiningRule.parserSection s.joiningRules, before, after,
      if_pos (s.joinsLines_iff.mpr hrules), ?_, JoiningRule.get?_name_parserSection _, ?_,
      hentries, hothers⟩
    · rw [s.joining?_eq_ite, if_neg hrules]
    · -- The reference is the first entry with its key, since the one in front has another.
      rw [List.append_cons] at hentries
      apply Section.get?_eq_some_of_entries_eq hentries
      intro e he
      rcases List.mem_append.mp he with hbefore | hstart
      · exact (hothers e (List.mem_append_left _ hbefore)).2
      · obtain rfl := List.mem_singleton.mp hstart
        show "read_from_head" ≠ "multiline.parser"
        decide
  lines parser hparser := by
    unfold joiningSection? at hparser
    split at hparser
    · obtain rfl := Option.some.inj hparser
      rw [JoiningRule.parserSection_eq]
      refine ⟨_, _, rfl, rfl, by decide, ?_⟩
      intro l hl
      obtain ⟨text, -, rfl⟩ := List.mem_map.mp hl
      exact ⟨text, rfl⟩
    · cases hparser

/-- **The two documents agree about joined lines.** Of a valid snapshot the main document has one
section that says what is read, and it refers to a parser exactly when the other document is there,
when there are rules, and when a run reports two documents; and then to the parser that the other
document defines by these rules. -/
theorem joining_agreement {s : Settings} {c : Compiled} (h : s.compile = .ok c) :
    ∃ input, c.sections.filter (fun sec => sec.kind = .input) = [input] ∧
      JoiningAgreement s c input := by
  obtain ⟨hvalid, rfl⟩ := Settings.compile_eq_ok_iff.mp h
  exact ⟨Blocks.input s, s.filter_kind_sections, Settings.joiningAgreement_input hvalid⟩

/-- A start pattern of one blank, and continuations that are all blank. -/
def blankStart : Settings :=
  .ofSource (.ofList [("MULTILINE_START_STATE_RULE", " "), ("MULTILINE_CUSTOM_RULES", " ; ")])

theorem joining_blankStart :
    blankStart.compile = .ok blankStart.documents ∧
      blankStart.documents.joining?.isSome = true ∧
      ∃ input, blankStart.documents.sections.filter (fun sec => sec.kind = .input) = [input] ∧
        input.HasKey "multiline.parser" ∧ input.HasKey "read_from_head" := by
  have hvalid : blankStart.compile = .ok blankStart.documents :=
    Settings.compile_of_valid (by decide)
  obtain ⟨input, hinput, hagreement⟩ := joining_agreement hvalid
  have hsome : blankStart.documents.joining?.isSome = true :=
    hagreement.rules_iff.mp (by decide)
  exact ⟨hvalid, hsome, input, hinput, hagreement.reference_iff.mpr hsome,
    hagreement.start_iff.mpr hsome⟩

end LogShipper
