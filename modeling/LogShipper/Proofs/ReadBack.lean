import LogShipper.Proofs.EffectiveView
import LogShipper.Proofs.Layout
import LogShipper.Proofs.Validity

/-!
# Reading a document back

A main document shows the view of its snapshot and nothing else: every line is either at a slot,
where it shows a text of the view, or plain. So the view can be read off the document, and two
snapshots have the same document exactly when they have the same view. Only line feeds could spoil
this, as they would make other lines of the texts.
-/

namespace LogShipper

open Slot

/-! ## What lines show -/

/-- The lines that are the same in every main document. -/
def fixedLines : List String :=
  ["", "[SERVICE]", "    Parsers_File parsers.conf", "    Parsers_File parsers_multiline.conf",
    "    Flush        1", "    Daemon       Off", "[INPUT]", "    Name         tail",
    "    Parser       docker", "    Tag          docker.*", "    multiline.parser multiline-regex",
    "[FILTER]", "    Name         lua", "    Match        docker.*",
    "    script       /fluent-bit/etc/docker-metadata.lua",
    "    call         enrich_with_docker_metadata", "    Name         nest",
    "    Match        *", "    Operation    lift", "    Nested_under _source",
    "    Name    grep", "    Match   *", "    Name modify", "    Match *",
    "    Rename log message", "[OUTPUT]", "    Name  logzio", "    Match *",
    "    headers user-agent:logzio-docker-collector-logs"]

/-- A fixed line is at no slot and holds no line feed. -/
theorem fixedLines_plain :
    ∀ l ∈ fixedLines, readLine? l = none ∧ l.toList.contains '\n' = false := by
  decide +kernel

/-- Lines show texts at slots: each line shows one text behind the beginning of its slot, or is
fixed. -/
inductive Shows : List String → List (Slot × String) → Prop where
  | nil : Shows [] []
  | fixed {l : String} {ls : List String} {es : List (Slot × String)} (h : l ∈ fixedLines)
      (rest : Shows ls es) : Shows (l :: ls) es
  | slot (p : Slot) (t : String) {ls : List String} {es : List (Slot × String)}
      (rest : Shows ls es) : Shows ((p.lead ++ t) :: ls) ((p, t) :: es)

namespace Shows

theorem append {a b : List String} {es fs : List (Slot × String)} (ha : Shows a es)
    (hb : Shows b fs) : Shows (a ++ b) (es ++ fs) := by
  induction ha with
  | nil => exact hb
  | fixed h _ ih => exact .fixed h ih
  | slot p t _ ih => exact .slot p t ih

/-- Lines at one slot show their texts. -/
theorem map_lead (p : Slot) (ts : List String) :
    Shows (ts.map (p.lead ++ ·)) (ts.map (p, ·)) := by
  induction ts with
  | nil => exact .nil
  | cons t ts ih => exact .slot p t ih

/-- What lines show is what is read off them. -/
theorem filterMap_readLine? {ls : List String} {es : List (Slot × String)} (h : Shows ls es) :
    ls.filterMap readLine? = es := by
  induction h with
  | nil => rfl
  | fixed h _ ih => rw [List.filterMap_cons_none (fixedLines_plain _ h).1, ih]
  | slot p t _ ih => rw [List.filterMap_cons_some (readLine?_lead_append p t), ih]

/-- A line feed in the lines is one in a text that they show. -/
theorem newline_free_iff {ls : List String} {es : List (Slot × String)} (h : Shows ls es) :
    (∀ l ∈ ls, '\n' ∉ l.toList) ↔ ∀ e ∈ es, '\n' ∉ e.2.toList := by
  induction h with
  | nil => simp
  | fixed h _ ih =>
      have hfree := (fixedLines_plain _ h).2
      rw [List.forall_mem_cons, ih, and_iff_right (by simpa using hfree)]
  | slot p t _ ih =>
      rw [List.forall_mem_cons, List.forall_mem_cons, ih, String.toList_append, List.mem_append,
        or_iff_right (newline_not_mem_lead p)]

end Shows

/-! ## What sections show -/

/-- A section shows what its body shows. -/
theorem shows_textLines {s : Section} {es : List (Slot × String)}
    (hheader : s.headerLine ∈ fixedLines) (h : Shows (s.lines.map Line.indented) es) :
    Shows s.textLines es :=
  .fixed (by decide) (.fixed hheader h)

/-- Fixed lines show nothing. -/
theorem shows_of_fixed {ls : List String} (h : ∀ l ∈ ls, l ∈ fixedLines) : Shows ls [] := by
  induction ls with
  | nil => exact .nil
  | cons l ls ih =>
      exact .fixed (h l List.mem_cons_self) (ih fun l' hl' => h l' (List.mem_cons_of_mem _ hl'))

/-- A line that is there unless its value is empty. -/
theorem shows_unless_empty {texts : Slot → List String} {p : Slot} {key value : String}
    {column : Nat} (hline : (Line.entry key value column).indented = p.lead ++ value)
    (htexts : texts p = if value = "" then [] else [value]) :
    Shows ((if value = "" then [] else [Line.entry key value column]).map Line.indented)
      (shown texts [p]) := by
  rw [shown_singleton, htexts]
  by_cases hv : value = ""
  · rw [if_pos hv, if_pos hv]
    exact .nil
  · rw [if_neg hv, if_neg hv, List.map_singleton, hline]
    exact .slot p value .nil

/-- A section of two fixed lines and a list that is there unless the list is empty. -/
theorem shows_unless_nil {α : Type} {xs : List α} [Decidable (xs = [])] {line : α → Line}
    {s : Section} {a b : Line} {es : List (Slot × String)} (hs : s.lines = a :: b :: xs.map line)
    (hheader : s.headerLine ∈ fixedLines) (ha : a.indented ∈ fixedLines)
    (hb : b.indented ∈ fixedLines)
    (h : Shows ((xs.map line).map Line.indented) es) :
    Shows ((if xs = [] then none else some s).toList.flatMap Section.textLines) es := by
  by_cases hx : xs = []
  · -- Without a list there is no section, and there was nothing to show.
    rw [if_pos hx]
    rw [hx] at h
    exact h
  · rw [if_neg hx, Option.toList_some, List.flatMap_singleton]
    refine shows_textLines hheader ?_
    rw [hs]
    exact .fixed ha (.fixed hb h)

namespace Settings

theorem shows_service (s : Settings) :
    Shows (Blocks.service s).textLines (shown s.view.texts [.logLevel]) := by
  have hheader : "[SERVICE]" ∈ fixedLines := by decide
  have hfixed : ∀ l ∈ ["    Parsers_File parsers.conf", "    Parsers_File parsers_multiline.conf",
      "    Flush        1", "    Daemon       Off"], l ∈ fixedLines := by decide
  have hlevel : Shows [lead .logLevel ++ s.value .logLevel] (shown s.view.texts [.logLevel]) :=
    .slot .logLevel (s.value .logLevel) .nil
  exact shows_textLines hheader ((shows_of_fixed hfixed).append hlevel)

theorem shows_input (s : Settings) :
    Shows (Blocks.input s).textLines
      (shown s.view.texts [.logsPath, .readFromHead, .ignoreOlder]) := by
  have hheader : "[INPUT]" ∈ fixedLines := by decide
  have hname : "    Name         tail" ∈ fixedLines := by decide
  have hfixed : ∀ l ∈ ["    Parser       docker", "    Tag          docker.*"],
      l ∈ fixedLines := by decide
  have hparser : "    multiline.parser multiline-regex" ∈ fixedLines := by decide
  have hfiles : Shows ([Line.entry "Name" "tail" Blocks.wide,
      .entry "Path" (s.value .logsPath) Blocks.wide, .entry "Parser" Blocks.lineParser Blocks.wide,
      .entry "Tag" Blocks.recordTag Blocks.wide].map Line.indented)
      (shown s.view.texts [.logsPath]) :=
    .fixed hname (.slot .logsPath (s.value .logsPath) (shows_of_fixed hfixed))
  have hjoined : Shows ((if s.joinsLines then
      [Line.entry "read_from_head" (s.value .readFromHead) Blocks.wide,
        .entry "multiline.parser" JoiningRule.parserName Blocks.wide] else []).map Line.indented)
      (shown s.view.texts [.readFromHead]) := by
    rw [shown_singleton, EffectiveView.texts, view, joinsLines]
    by_cases h : s.value .joinStart ≠ ""
    · rw [if_pos (decide_eq_true h), if_pos h]
      exact .slot .readFromHead (s.value .readFromHead) (.fixed hparser .nil)
    · rw [if_neg (by simpa using h), if_neg h]
      exact .nil
  have hage : Shows ((if s.value .ignoreOlder = "" then []
      else [Line.entry "ignore_older" (s.value .ignoreOlder) Blocks.wide]).map Line.indented)
      (shown s.view.texts [.ignoreOlder]) := shows_unless_empty rfl rfl
  have hbody := (hfiles.append hjoined).append hage
  rw [← shown_append, ← shown_append, ← List.map_append, ← List.map_append] at hbody
  rw [Blocks.input_eq]
  exact shows_textLines hheader hbody

theorem shows_output (s : Settings) :
    Shows (Blocks.output s).textLines
      (shown s.view.texts [.logsToken, .listenerUrl, .streamType, .outputId, .headers]) := by
  have hheader : "[OUTPUT]" ∈ fixedLines := by decide
  have hfixed : ∀ l ∈ ["    Name  logzio", "    Match *"], l ∈ fixedLines := by decide
  have hsender : "    headers " ++ Blocks.senderHeader ∈ fixedLines := by decide
  have hentries : Shows ([Line.entry "Name" Blocks.outputName 5, .entry "Match" "*" 5,
      .entry "logzio_token" (s.value .logsToken) Blocks.wide,
      .entry "logzio_url" (s.value .listenerUrl) Blocks.wide,
      .entry "logzio_type" (s.value .streamType) Blocks.wide, .entry "id" (s.value .outputId) 0,
      .entry "headers" Blocks.senderHeader 0].map Line.indented)
      (shown s.view.texts [.logsToken, .listenerUrl, .streamType, .outputId]) :=
    (shows_of_fixed hfixed).append (.slot .logsToken (s.value .logsToken)
      (.slot .listenerUrl (s.value .listenerUrl) (.slot .streamType (s.value .streamType)
        (.slot .outputId (s.value .outputId) (.fixed hsender .nil)))))
  have hheaders : Shows ((if s.value .headers = "" then []
      else [Line.entry "headers" (s.value .headers) Blocks.wide]).map Line.indented)
      (shown s.view.texts [.headers]) := shows_unless_empty rfl rfl
  have hbody := hentries.append hheaders
  rw [← shown_append, ← List.map_append] at hbody
  rw [Blocks.output_eq]
  exact shows_textLines hheader hbody

/-- The rules of a selection show its pattern or its exclusions. -/
theorem shows_rules (subject : Subject) (selection? : Option Selection) :
    Shows (((selection?.elim [] Selection.rules).map fun rule =>
        Line.entry rule.1 (subject.field ++ " " ++ rule.2) 0).map Line.indented)
      ((EffectiveView.patternOf selection?).map (.pattern subject, ·) ++
        (EffectiveView.exclusionsOf selection?).map (.exclusion subject, ·)) := by
  have hregex : ∀ p, (Line.entry "Regex" (subject.field ++ " " ++ p) 0).indented =
      lead (.pattern subject) ++ p := fun p => by cases subject <;> rfl
  have hexclude : ∀ p, (Line.entry "Exclude" (subject.field ++ " " ++ p) 0).indented =
      lead (.exclusion subject) ++ p := fun p => by cases subject <;> rfl
  cases selection? with
  | none => exact .nil
  | some selection =>
      cases selection with
      | matching p =>
          show Shows [(Line.entry "Regex" (subject.field ++ " " ++ p) 0).indented]
            [(.pattern subject, p)]
          rw [hregex]
          exact .slot _ p .nil
      | excluding ps =>
          have hlines : ((ps.map ("Exclude", ·)).map fun rule : String × String =>
              Line.entry rule.1 (subject.field ++ " " ++ rule.2) 0).map Line.indented =
              ps.map (lead (.exclusion subject) ++ ·) := by
            rw [List.map_map, List.map_map]
            exact List.map_congr_left fun p _ => hexclude p
          show Shows (((ps.map ("Exclude", ·)).map fun rule : String × String =>
            Line.entry rule.1 (subject.field ++ " " ++ rule.2) 0).map Line.indented)
            (ps.map (.exclusion subject, ·))
          rw [hlines]
          exact .map_lead _ ps

/-- A filter shows the selection of its subject. -/
theorem shows_filter (s : Settings) (subject : Subject) :
    Shows ((s.filter? subject).toList.flatMap Section.textLines)
      (shown s.view.texts [.pattern subject, .exclusion subject]) := by
  have hheader : "[FILTER]" ∈ fixedLines := by decide
  have hname : "    Name    grep" ∈ fixedLines := by decide
  have hmatch : "    Match   *" ∈ fixedLines := by decide
  have hshown : shown s.view.texts [.pattern subject, .exclusion subject] =
      (EffectiveView.patternOf (s.view.selection? subject)).map (.pattern subject, ·) ++
        (EffectiveView.exclusionsOf (s.view.selection? subject)).map (.exclusion subject, ·) := by
    rw [shown, List.flatMap_cons, List.flatMap_singleton]
    rfl
  have hrules := shows_rules subject (s.view.selection? subject)
  rw [← rulesFor_eq_view, ← hshown] at hrules
  rw [filter?_eq_ite]
  exact shows_unless_nil rfl hheader hname hmatch hrules

/-- The section for a list of field directives shows them. -/
theorem shows_block {texts : Slot → List String} {p : Slot} {word list : String}
    (hline : ∀ t, (Line.entry word t 0).indented = p.lead ++ t)
    (htexts : texts p = directiveTexts list) :
    Shows ((FieldChanges.block? word list).toList.flatMap Section.textLines)
      (shown texts [p]) := by
  have hheader : "[FILTER]" ∈ fixedLines := by decide
  have hname : "    Name modify" ∈ fixedLines := by decide
  have hmatch : "    Match *" ∈ fixedLines := by decide
  have hsection : (modifySection ((directiveTexts list).map (word, ·))).lines =
      .entry "Name" "modify" 0 :: .entry "Match" "*" 0 ::
        (directiveTexts list).map fun t => .entry word t 0 := by
    rw [modifySection, List.map_map]
    rfl
  have hlines : ((directiveTexts list).map fun t => Line.entry word t 0).map Line.indented =
      (directiveTexts list).map (p.lead ++ ·) := by
    rw [List.map_map]
    exact List.map_congr_left fun t _ => hline t
  rw [FieldChanges.block?_eq_ite, shown_singleton, htexts]
  refine shows_unless_nil hsection hheader hname hmatch ?_
  rw [hlines]
  exact .map_lead p _

theorem shows_metadata : Shows Blocks.metadata.textLines [] :=
  shows_of_fixed (by decide)

theorem shows_lifting : Shows Blocks.lifting.textLines [] :=
  shows_of_fixed (by decide)

theorem shows_rename : Shows FieldChanges.rename.textLines [] :=
  shows_of_fixed (by decide)

/-- The filters on names show their selections; the section in front of them shows nothing. -/
theorem shows_nameFilters (s : Settings) :
    Shows (s.nameFilters.flatMap Section.textLines)
      (shown s.view.texts [.pattern .containerName, .exclusion .containerName,
        .pattern .imageName, .exclusion .imageName]) := by
  have hfilters := (s.shows_filter .containerName).append (s.shows_filter .imageName)
  rw [← shown_append, ← List.flatMap_append] at hfilters
  rw [nameFilters_eq_ite]
  by_cases h : (s.filter? .containerName).toList ++ (s.filter? .imageName).toList = []
  · -- Names are not lifted when no filter needs them.
    rw [if_pos h]
    rw [h] at hfilters
    exact hfilters
  · rw [if_neg h, List.flatMap_cons]
    exact shows_lifting.append hfilters

theorem shows_fieldChanges (s : Settings) :
    Shows ((FieldChanges.ofSettings s).sections.flatMap Section.textLines)
      (shown s.view.texts [.addition, .replacement]) := by
  have hadd : Shows ((FieldChanges.block? "Add" (s.value .additionalFields)).toList.flatMap
      Section.textLines) (shown s.view.texts [.addition]) := shows_block (fun _ => rfl) rfl
  have hset : Shows ((FieldChanges.block? "Set" (s.value .setFields)).toList.flatMap
      Section.textLines) (shown s.view.texts [.replacement]) := shows_block (fun _ => rfl) rfl
  have hblocks := hadd.append hset
  rw [← shown_append, ← List.flatMap_append] at hblocks
  rw [FieldChanges.sections_ofSettings, List.flatMap_cons]
  exact shows_rename.append hblocks

/-- **The lines of a document show the view.** Every slot has its texts, in the order of slots, and
all other lines are fixed. -/
theorem shows_sections (s : Settings) :
    Shows (s.sections.flatMap Section.textLines) (shown s.view.texts Slot.all) := by
  have hall : Slot.all = [.logLevel] ++ [.logsPath, .readFromHead, .ignoreOlder] ++
      [.pattern .containerName, .exclusion .containerName, .pattern .imageName,
        .exclusion .imageName] ++ [.pattern .logLine, .exclusion .logLine] ++
      [.addition, .replacement] ++
      [.logsToken, .listenerUrl, .streamType, .outputId, .headers] := rfl
  have hhead := (s.shows_service.append s.shows_input).append (shows_metadata)
  have hfilters := (hhead.append s.shows_nameFilters).append (s.shows_filter .logLine)
  have hlines := (hfilters.append s.shows_fieldChanges).append s.shows_output
  rw [hall]
  simp only [shown_append, sections, List.flatMap_append, List.flatMap_cons, List.flatMap_nil,
    List.append_assoc, List.append_nil] at hlines ⊢
  exact hlines

/-- A line feed in the document's lines is one in a text of the view. -/
theorem newline_free_sections_iff (s : Settings) :
    (∀ l ∈ s.sections.flatMap Section.textLines, '\n' ∉ l.toList) ↔
      ∀ p, ∀ t ∈ s.view.texts p, '\n' ∉ t.toList := by
  rw [s.shows_sections.newline_free_iff]
  constructor
  · intro h p t ht
    exact h (p, t) (mem_shown_iff.mpr ⟨mem_all p, ht⟩)
  · intro h e he
    exact h e.1 e.2 (mem_shown_iff.mp he).2

/-! ## What is read off a document -/

/-- **The texts are read back.** At every slot a document shows the texts that the view gives it. -/
theorem textsIn_main {s : Settings} (h : ∀ k, '\n' ∉ (s.value k).toList) :
    textsIn s.documents.main = s.view.texts := by
  have hfree : ∀ l ∈ s.sections.flatMap Section.textLines, '\n' ∉ l.toList :=
    s.newline_free_sections_iff.mpr fun _ _ ht => newline_not_mem_view h ht
  have hrest : readLine? "" = none := (fixedLines_plain "" (by decide)).1
  funext p
  show textsIn (Section.renderAll s.sections) p = s.view.texts p
  rw [textsIn, Section.renderAll_eq_ofLines, Text.lines_ofLines_of_not_mem hfree,
    List.filterMap_append, s.shows_sections.filterMap_readLine?, List.filterMap_cons_none hrest,
    List.filterMap_nil, List.append_nil, filterMap_shown]

end Settings

/-- **The document is the view.** Valid snapshots without line feeds have one main document exactly
when they have one view: the document loses nothing of the view, and shows nothing else. -/
theorem main_eq_iff_view_eq {s t : Settings} {c d : Compiled} (hc : s.compile = .ok c)
    (hd : t.compile = .ok d) (hs : ∀ k, '\n' ∉ (s.value k).toList)
    (ht : ∀ k, '\n' ∉ (t.value k).toList) : c.main = d.main ↔ s.view = t.view := by
  obtain ⟨-, rfl⟩ := Settings.compile_eq_ok_iff.mp hc
  obtain ⟨-, rfl⟩ := Settings.compile_eq_ok_iff.mp hd
  constructor
  · -- Both views are read off one document.
    intro hmain
    have htexts : s.view.texts = t.view.texts := by
      rw [← Settings.textsIn_main hs, hmain, Settings.textsIn_main ht]
    exact EffectiveView.eq_of_texts_eq s.view_proper t.view_proper htexts
  · intro hview
    exact congrArg Section.renderAll (Settings.sections_eq_of_view_eq hview)

/-- Lists with blanks and a piece that is left out, and a place to start reading that plays no
part. -/
def looseLists : Settings :=
  .ofSource (.ofList [("READ_FROM_HEAD", "false"), ("EXCLUDE_LINES", " DEBUG, ,TRACE "),
    ("ADDITIONAL_FIELDS", "team, env : prod")])

/-- The same lists without what is not shown. -/
def tightLists : Settings :=
  .ofSource (.ofList [("EXCLUDE_LINES", "DEBUG,TRACE"), ("ADDITIONAL_FIELDS", "env:prod")])

/-- Snapshots that differ only in what is not shown have one document. -/
theorem main_looseLists_eq_main_tightLists :
    looseLists ≠ tightLists ∧ looseLists.compile = .ok looseLists.documents ∧
      tightLists.compile = .ok tightLists.documents ∧
      looseLists.documents.main = tightLists.documents.main := by
  have hloose : looseLists.compile = .ok looseLists.documents :=
    Settings.compile_of_valid (by decide)
  have htight : tightLists.compile = .ok tightLists.documents :=
    Settings.compile_of_valid (by decide)
  have hlooseFree : ∀ k, '\n' ∉ (looseLists.value k).toList := fun k => by cases k <;> decide
  have htightFree : ∀ k, '\n' ∉ (tightLists.value k).toList := fun k => by cases k <;> decide
  have hselection : looseLists.view.selection? = tightLists.view.selection? :=
    funext fun subject => by cases subject <;> decide
  have hview : looseLists.view = tightLists.view :=
    EffectiveView.ext rfl rfl (by decide) rfl hselection (by decide) (by decide) rfl rfl rfl rfl rfl
  exact ⟨by decide, hloose, htight,
    (main_eq_iff_view_eq hloose htight hlooseFree htightFree).mpr hview⟩

end LogShipper
