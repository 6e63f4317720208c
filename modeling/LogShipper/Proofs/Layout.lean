import LogShipper.Proofs.Pieces
import LogShipper.Section.Basic

/-!
# The layout of documents

A document of sections is meant to be read line by line: for each section an empty line, its header,
and one indented line for each of its entries. `LaidOut` says that lines have this form. Sections
are written line by line too, but a line of a section may itself hold line feeds, and the document
has the form exactly when none does.
-/

namespace LogShipper

/-- A line of a body with its indentation, without its line break. -/
def Line.indented (l : Line) : String :=
  indent ++ l.text

namespace Section

/-- The line that opens a section. -/
def headerLine (s : Section) : String :=
  "[" ++ s.kind.header ++ "]"

/-- The lines that a section is written by. -/
def textLines (s : Section) : List String :=
  "" :: s.headerLine :: s.lines.map Line.indented

/-- The lines are those of the sections in their order: for each an empty one, its header, and one
indented line for every entry; then an empty rest, and nothing else. -/
def LaidOut : List Section → List String → Prop
  | [], lines => lines = [""]
  | s :: rest, lines => ∃ body below,
      lines = "" :: s.headerLine :: (body ++ below) ∧ body.length = s.entries.length ∧
        (∀ l ∈ body, Line.indent.toList <+: l.toList) ∧ LaidOut rest below

/-- All lines of a section are entries. -/
def OnlyEntries (s : Section) : Prop :=
  ∀ l ∈ s.lines, l.keyValue?.isSome = true

theorem OnlyEntries.length_entries {s : Section} (h : s.OnlyEntries) :
    s.entries.length = s.lines.length :=
  List.filterMap_length_eq_length.mpr h

theorem render_eq_ofLines (s : Section) : s.render = Text.ofLines s.textLines := by
  have hlines : s.lines.map Line.render = (s.lines.map Line.indented).map (· ++ "\n") := by
    rw [List.map_map]
    rfl
  rw [render, hlines, textLines, Text.ofLines, List.map_cons, List.map_cons, String.join_cons,
    String.join_cons, headerLine]
  simp only [String.append_assoc]
  rfl

theorem renderAll_eq_ofLines (ss : List Section) :
    renderAll ss = Text.ofLines (ss.flatMap textLines) := by
  induction ss with
  | nil => rfl
  | cons s ss ih =>
      rw [List.flatMap_cons, Text.ofLines_append, ← render_eq_ofLines, ← ih]
      simp [renderAll]

/-! ## Line feeds and layout -/

theorem laidOut_textLines {ss : List Section} (h : ∀ s ∈ ss, s.OnlyEntries) :
    LaidOut ss (ss.flatMap textLines ++ [""]) := by
  induction ss with
  | nil => rfl
  | cons s ss ih =>
      have hs := (h s List.mem_cons_self).length_entries
      refine ⟨s.lines.map Line.indented, ss.flatMap textLines ++ [""], ?_, ?_, ?_,
        ih fun t ht => h t (List.mem_cons_of_mem _ ht)⟩
      · rw [List.flatMap_cons, textLines, List.append_assoc]
        rfl
      · rw [List.length_map, hs]
      · intro l hl
        obtain ⟨line, -, rfl⟩ := List.mem_map.mp hl
        rw [Line.indented, String.toList_append]
        exact List.prefix_append _ _

theorem LaidOut.length_eq {ss : List Section} {lines : List String} (h : LaidOut ss lines)
    (hss : ∀ s ∈ ss, s.OnlyEntries) : lines.length = (ss.flatMap textLines).length + 1 := by
  -- Each section takes its own lines off the front and leaves the rest to the others.
  induction ss generalizing lines with
  | nil =>
      rw [show lines = [""] from h]
      rfl
  | cons s ss ih =>
      obtain ⟨body, below, rfl, hbody, -, hbelow⟩ := h
      have hs := (hss s List.mem_cons_self).length_entries
      have hlen := ih hbelow fun t ht => hss t (List.mem_cons_of_mem _ ht)
      simp only [List.flatMap_cons, List.length_append, List.length_cons, textLines,
        List.length_map] at hlen ⊢
      omega

/-- **A document keeps its layout exactly when no line holds a line feed.** With a line feed the
document has more lines than the sections account for, whatever stands in them. -/
theorem laidOut_lines_renderAll_iff {ss : List Section} (h : ∀ s ∈ ss, s.OnlyEntries) :
    LaidOut ss (Text.lines (renderAll ss)) ↔ ∀ l ∈ ss.flatMap textLines, '\n' ∉ l.toList := by
  rw [renderAll_eq_ofLines]
  constructor
  · intro hout
    exact Text.length_lines_ofLines_eq_iff.mp (hout.length_eq h)
  · intro hfree
    rw [Text.lines_ofLines_of_not_mem hfree]
    exact laidOut_textLines h

end Section

end LogShipper
