import LogShipper.Proofs.ReadBack
import LogShipper.Proofs.SectionOrder

/-!
# Line breaks in settings

Values are written into the lines of the main document as they are, so a line feed in a value that
is shown begins a line of its own, which may look like an entry or like the header of a section.
The document has the lines of its sections exactly when no text that it shows holds a line feed.
-/

namespace LogShipper

namespace Section.OnlyEntries

theorem grep (field : String) (rules : List (String × String)) :
    (grepSection field rules).OnlyEntries := by
  refine List.forall_mem_cons.mpr ⟨rfl, List.forall_mem_cons.mpr ⟨rfl, ?_⟩⟩
  exact List.forall_mem_map.mpr fun _ _ => rfl

theorem modify (directives : List (String × String)) :
    (modifySection directives).OnlyEntries := by
  refine List.forall_mem_cons.mpr ⟨rfl, List.forall_mem_cons.mpr ⟨rfl, ?_⟩⟩
  exact List.forall_mem_map.mpr fun _ _ => rfl

theorem input (s : Settings) : (Blocks.input s).OnlyEntries := by
  rw [Blocks.input_eq]
  apply List.all_eq_true.mp
  by_cases hjoins : s.joinsLines = true <;> by_cases hage : s.value .ignoreOlder = "" <;>
    simp only [hjoins, hage, if_true, if_false] <;> rfl

theorem output (s : Settings) : (Blocks.output s).OnlyEntries := by
  rw [Blocks.output_eq]
  apply List.all_eq_true.mp
  by_cases hheaders : s.value .headers = "" <;> simp only [hheaders, if_true, if_false] <;> rfl

end Section.OnlyEntries

/-- The main document is made of entries. -/
theorem Settings.onlyEntries_of_mem_sections {s : Settings} {sec : Section}
    (h : sec ∈ s.sections) : sec.OnlyEntries := by
  rw [sections_eq_due] at h
  obtain ⟨p, -, rfl⟩ := List.mem_map.mp h
  cases p with
  | service => exact List.all_eq_true.mp rfl
  | input => exact .input s
  | metadata => exact List.all_eq_true.mp rfl
  | lifting => exact List.all_eq_true.mp rfl
  | filter subject => exact .grep _ _
  | rename => exact .modify _
  | additions => exact .modify _
  | replacements => exact .modify _
  | output => exact .output s

/-- **The layout holds exactly when no text that is shown holds a line feed.** In particular it
holds when there are no line feeds in the settings. What is trimmed away, left out or not shown may
hold any. -/
theorem laidOut_main_iff {s : Settings} {c : Compiled} (h : s.compile = .ok c) :
    (Section.LaidOut c.sections (Text.lines c.main) ↔
      ∀ p, ∀ t ∈ s.view.texts p, '\n' ∉ t.toList) ∧
    ((∀ k, '\n' ∉ (s.value k).toList) → Section.LaidOut c.sections (Text.lines c.main)) := by
  obtain ⟨-, rfl⟩ := Settings.compile_eq_ok_iff.mp h
  have hiff : Section.LaidOut s.sections (Text.lines (Section.renderAll s.sections)) ↔
      ∀ p, ∀ t ∈ s.view.texts p, '\n' ∉ t.toList := by
    rw [Section.laidOut_lines_renderAll_iff fun _ => Settings.onlyEntries_of_mem_sections,
      Settings.newline_free_sections_iff]
  exact ⟨hiff, fun hfree => hiff.mpr fun _ _ ht => Settings.newline_not_mem_view hfree ht⟩

/-- Line feeds around a pattern, and in a value that plays no part. -/
def harmlessBreaks : Settings :=
  .ofSource (.ofList [("READ_FROM_HEAD", "true\n[OUTPUT]"), ("MATCH_CONTAINER_NAME", "\nweb\n")])

theorem laidOut_main_harmlessBreaks :
    harmlessBreaks.compile = .ok harmlessBreaks.documents ∧
      Section.LaidOut harmlessBreaks.documents.sections
        (Text.lines harmlessBreaks.documents.main) := by
  have hvalid : harmlessBreaks.compile = .ok harmlessBreaks.documents :=
    Settings.compile_of_valid (by decide)
  have hfree : ∀ p ∈ Slot.all, ∀ t ∈ harmlessBreaks.view.texts p, '\n' ∉ t.toList := by
    decide +kernel
  exact ⟨hvalid, (laidOut_main_iff hvalid).1.mpr fun p => hfree p (Slot.mem_all p)⟩

/-- A level with the text of a section behind it. -/
def forgedOutput : Settings :=
  .ofSource (.ofList [("LOG_LEVEL", "info\n\n[OUTPUT]\n    Name  stdout")])

/-- A value can forge a section: the document of a valid snapshot is not laid out by its sections,
and has two headers of outputs for one output. -/
theorem not_laidOut_main_forgedOutput :
    forgedOutput.compile = .ok forgedOutput.documents ∧
      ¬ Section.LaidOut forgedOutput.documents.sections
        (Text.lines forgedOutput.documents.main) ∧
      (Text.lines forgedOutput.documents.main).count "[OUTPUT]" = 2 ∧
      (forgedOutput.documents.sections.filter (·.kind = .output)).length = 1 := by
  have hshown : forgedOutput.value .logLevel ∈ forgedOutput.view.texts .logLevel :=
    List.mem_singleton_self _
  have hbreak : '\n' ∈ (forgedOutput.value .logLevel).toList := by decide
  refine ⟨Settings.compile_of_valid (by decide), ?_, ?_, by decide⟩
  · intro h
    have hfree : ∀ l ∈ forgedOutput.sections.flatMap Section.textLines, '\n' ∉ l.toList :=
      (Section.laidOut_lines_renderAll_iff fun _ =>
        Settings.onlyEntries_of_mem_sections).mp h
    exact forgedOutput.newline_free_sections_iff.mp hfree .logLevel _ hshown hbreak
  · have hlines : Text.lines forgedOutput.documents.main =
        (forgedOutput.sections.flatMap Section.textLines).flatMap Text.lines ++ [""] := by
      rw [← Text.lines_ofLines, ← Section.renderAll_eq_ofLines]
      rfl
    rw [hlines]
    decide +kernel

end LogShipper
