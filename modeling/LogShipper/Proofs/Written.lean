import LogShipper.Document.Compiled
import LogShipper.Proofs.Pieces

/-!
# Sections written out

The compiler builds sections entry by entry. Here those whose length depends on the settings are
written out line by line, and the filters and field changes of a snapshot are given as such
sections: a filter by its rules, a section of field changes by its directives. Without rules or
directives there is no section.
-/

namespace LogShipper

/-! ## Sections that are built entry by entry -/

/-- Lines that are appended one after the other stand in their order behind what was there. -/
theorem Section.foldl_append {α : Type} (f : Nat → α → Line) (s : Section) (xs : List α) :
    xs.foldl (fun s x => s.append (f s.column x)) s =
      { s with lines := s.lines ++ xs.map (f s.column) } := by
  induction xs generalizing s with
  | nil => rw [List.foldl_nil, List.map_nil, List.append_nil]
  | cons x xs ih =>
      rw [List.foldl_cons, ih]
      simp [Section.append]

/-- A filter on a field by rules of a directive and a pattern. -/
def grepSection (field : String) (rules : List (String × String)) : Section :=
  { kind := .filter, column := 0
    lines := .entry "Name" "grep" 7 :: .entry "Match" "*" 7 ::
      rules.map fun rule => .entry rule.1 (field ++ " " ++ rule.2) 0 }

/-- A section that changes fields by directives with their values. -/
def modifySection (directives : List (String × String)) : Section :=
  { kind := .filter, column := 0
    lines := .entry "Name" "modify" 0 :: .entry "Match" "*" 0 ::
      directives.map fun directive => .entry directive.1 directive.2 0 }

theorem Section.entries_grep (field : String) (rules : List (String × String)) :
    (grepSection field rules).entries =
      ("Name", "grep") :: ("Match", "*") ::
        rules.map fun rule => (rule.1, field ++ " " ++ rule.2) := by
  simp [entries, grepSection, Line.keyValue?, Function.comp_def]

theorem Section.entries_modify (directives : List (String × String)) :
    (modifySection directives).entries = ("Name", "modify") :: ("Match", "*") :: directives := by
  simp [entries, modifySection, Line.keyValue?, Function.comp_def]

theorem Selection.toSection_eq (field : String) (selection : Selection) :
    selection.toSection field = grepSection field selection.rules := by
  unfold Selection.toSection
  exact Section.foldl_append
    (fun column rule => .entry rule.1 (field ++ " " ++ rule.2) column) _ selection.rules

theorem FieldChanges.foldl_modify (word : String) (ds : List FieldDirective) :
    ds.foldl (fun s d => s.entry word d.text) modify =
      modifySection (ds.map fun d => (word, d.text)) := by
  rw [modifySection, List.map_map]
  exact Section.foldl_append (fun column (d : FieldDirective) => .entry word d.text column)
    modify ds

/-! ## Input and output -/

namespace Blocks

/-- The input section: where reading starts and the parser are there when lines are joined, the age
when it is given. -/
theorem input_eq (s : Settings) :
    input s =
      { kind := .input, column := wide
        lines := [.entry "Name" "tail" wide, .entry "Path" (s.value .logsPath) wide,
            .entry "Parser" lineParser wide, .entry "Tag" recordTag wide] ++
          (if s.joinsLines then [.entry "read_from_head" (s.value .readFromHead) wide,
            .entry "multiline.parser" JoiningRule.parserName wide] else []) ++
          (if s.value .ignoreOlder = "" then []
            else [.entry "ignore_older" (s.value .ignoreOlder) wide]) } := by
  unfold input
  by_cases hjoins : s.joinsLines = true <;> by_cases hage : s.value .ignoreOlder = "" <;>
    simp [hjoins, hage, Section.new, Section.aligned, Section.entry, Section.append]

theorem entries_input (s : Settings) :
    (input s).entries =
      [("Name", "tail"), ("Path", s.value .logsPath), ("Parser", lineParser), ("Tag", recordTag)] ++
        (if s.joinsLines then [("read_from_head", s.value .readFromHead),
          ("multiline.parser", JoiningRule.parserName)] else []) ++
        (if s.value .ignoreOlder = "" then [] else [("ignore_older", s.value .ignoreOlder)]) := by
  rw [input_eq]
  by_cases hjoins : s.joinsLines = true <;> by_cases hage : s.value .ignoreOlder = "" <;>
    simp [hjoins, hage, Section.entries, Line.keyValue?]

/-- The output section: a header line is added when it is given. -/
theorem output_eq (s : Settings) :
    output s =
      { kind := .output, column := 0
        lines := [.entry "Name" outputName 5, .entry "Match" "*" 5,
            .entry "logzio_token" (s.value .logsToken) wide,
            .entry "logzio_url" (s.value .listenerUrl) wide,
            .entry "logzio_type" (s.value .streamType) wide,
            .entry "id" (s.value .outputId) 0, .entry "headers" senderHeader 0] ++
          (if s.value .headers = "" then [] else [.entry "headers" (s.value .headers) wide]) } := by
  unfold output
  by_cases hheaders : s.value .headers = "" <;>
    simp [hheaders, Section.new, Section.aligned, Section.entry, Section.entryAt, Section.append]

theorem entries_output (s : Settings) :
    (output s).entries =
      [("Name", outputName), ("Match", "*"), ("logzio_token", s.value .logsToken),
          ("logzio_url", s.value .listenerUrl), ("logzio_type", s.value .streamType),
          ("id", s.value .outputId), ("headers", senderHeader)] ++
        (if s.value .headers = "" then [] else [("headers", s.value .headers)]) := by
  rw [output_eq]
  by_cases hheaders : s.value .headers = "" <;> simp [hheaders, Section.entries, Line.keyValue?]

end Blocks

/-! ## The parser of joined lines -/

/-- The section that defines the parser: three entries, the hints, and a line for each rule. -/
theorem JoiningRule.parserSection_eq (rules : List JoiningRule) :
    parserSection rules =
      { kind := .multilineParser, column := 13
        lines := [.entry "name" "multiline-regex" 13, .entry "type" "regex" 13,
            .entry "flush_timeout" "1000" 13] ++ hints.map .comment ++
          rules.map fun r => .verbatim r.render } := by
  have hhints : hints.foldl Section.comment parserHead =
      { parserHead with lines := parserHead.lines ++ hints.map .comment } :=
    Section.foldl_append (fun _ text => .comment text) parserHead hints
  have hrules := Section.foldl_append (fun _ (r : JoiningRule) => .verbatim r.render)
    (hints.foldl Section.comment parserHead) rules
  calc parserSection rules
      = { hints.foldl Section.comment parserHead with
          lines := (hints.foldl Section.comment parserHead).lines ++
            rules.map fun r => .verbatim r.render } := hrules
    _ = _ := by
        rw [hhints]
        rfl

/-! ## Filters -/

namespace Settings

/-- The exclusions that a list holds: its pieces that are not blank, without the blanks around
them. -/
def exclusions (list : String) : List String :=
  ((Text.splitPieces ',' list).filter fun piece => ¬ piece.toList.all Text.isBlank).map Text.trimmed

theorem splitEntries_eq_exclusions (list : String) :
    Text.splitEntries ',' list = exclusions list :=
  Text.splitEntries_eq_map_filter ',' list

/-- The rules for a subject: the pattern when there is one, and else the exclusions. -/
def rulesFor (s : Settings) (subject : Subject) : List (String × String) :=
  if s.value subject.matchSetting ≠ "" then
    [("Regex", Text.trimmed (s.value subject.matchSetting))]
  else (exclusions (s.value subject.skipSetting)).map ("Exclude", ·)

/-- The filter for a subject is made of its rules. -/
theorem filter?_eq_ite (s : Settings) (subject : Subject) :
    s.filter? subject =
      if s.rulesFor subject = [] then none
      else some (grepSection subject.field (s.rulesFor subject)) := by
  unfold filter? selection? Selection.of? rulesFor
  by_cases hmatch : s.value subject.matchSetting ≠ ""
  · rw [if_pos hmatch, if_pos hmatch, Option.map_some, Selection.toSection_eq,
      if_neg (List.cons_ne_nil _ _)]
    rfl
  · rw [if_neg hmatch, if_neg hmatch, splitEntries_eq_exclusions]
    cases hskip : exclusions (s.value subject.skipSetting) with
    | nil => rfl
    | cons p ps =>
        rw [Option.map_some, Selection.toSection_eq, List.map_cons, if_neg (List.cons_ne_nil _ _)]
        rfl

/-- Names are lifted in front of the filters on names when there is one of these. -/
theorem nameFilters_eq_ite (s : Settings) :
    s.nameFilters =
      if (s.filter? .containerName).toList ++ (s.filter? .imageName).toList = [] then []
      else Blocks.lifting ::
        ((s.filter? .containerName).toList ++ (s.filter? .imageName).toList) := by
  unfold nameFilters
  cases hc : s.filter? .containerName <;> cases hi : s.filter? .imageName <;> simp [hc, hi]

end Settings

/-! ## Field directives -/

/-- What a piece of a list gives an entry: the text before its first colon and the text behind it,
both without the blanks around them. -/
def directiveText? (piece : String) : Option String :=
  let key := piece.toList.takeWhile (· ≠ ':')
  let value := (piece.toList.dropWhile (· ≠ ':')).tail
  if ':' ∈ piece.toList then
    some (Text.trimmed (String.ofList key) ++ " " ++ Text.trimmed (String.ofList value))
  else none

/-- What the pieces of a list give entries, in order. -/
def directiveTexts (list : String) : List String :=
  (Text.splitPieces ',' list).filterMap directiveText?

theorem FieldDirective.map_text_parse? (piece : String) :
    (parse? piece).map text = directiveText? piece := by
  rw [parse?, Text.cutAt?_eq_ite, directiveText?]
  by_cases h : ':' ∈ piece.toList
  · simp [h, text, Text.trimmed]
  · rw [if_neg h, if_neg h]
    rfl

theorem fst_of_mem_map_mk {word : String} {texts : List String} {d : String × String}
    (h : d ∈ texts.map (word, ·)) : d.1 = word := by
  obtain ⟨_, -, rfl⟩ := List.mem_map.mp h
  rfl

namespace FieldChanges

/-- An empty list has no piece with a colon either. -/
theorem directives_eq (list : String) :
    directives list = (Text.splitPieces ',' list).filterMap FieldDirective.parse? := by
  unfold directives pieces
  split
  · next h =>
    rw [h]
    rfl
  · rfl

theorem map_text_directives (list : String) :
    (directives list).map FieldDirective.text = directiveTexts list := by
  rw [directives_eq, List.map_filterMap, directiveTexts]
  exact List.filterMap_congr fun piece _ => FieldDirective.map_text_parse? piece

/-- The section for a list is made of its directives. -/
theorem block?_eq_ite (word list : String) :
    block? word list =
      if directiveTexts list = [] then none
      else some (modifySection ((directiveTexts list).map (word, ·))) := by
  rw [← map_text_directives, block?]
  cases hds : directives list with
  | nil => rfl
  | cons d ds =>
      rw [if_neg (mt List.map_eq_nil_iff.mp (List.cons_ne_nil d ds)), List.map_map]
      exact congrArg some (foldl_modify word (d :: ds))

theorem sections_ofSettings (s : Settings) :
    (ofSettings s).sections =
      rename :: ((block? "Add" (s.value .additionalFields)).toList ++
        (block? "Set" (s.value .setFields)).toList) := by
  unfold ofSettings groups
  cases ha : block? "Add" (s.value .additionalFields) <;>
    cases hs : block? "Set" (s.value .setFields) <;> simp [ha, hs]

end FieldChanges

end LogShipper
