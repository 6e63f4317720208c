import LogShipper.Section.Edit
import Mathlib.Data.List.Forall2
import Mathlib.Data.List.Induction
import Mathlib.Data.List.Infix

/-!
# Sections as logs of edits

A section is made by edits that add a line each, and by edits that put a column in force and add
nothing. What an edit adds depends on it and on the column of that moment, which is the last one
put in force before, and on nothing else: the lines are those that the edits add, each read off the
edits before it. So edits that follow leave the text so far as it is.
-/

namespace LogShipper

/-! ## Pieces of text -/

/-- A text is a key with spaces behind it, up to a number of characters. A longer key is as it
is. -/
structure Padded (width : Nat) (key text : String) : Prop where
  spaces : ∃ n, text = key ++ String.ofList (List.replicate n ' ')
  length_eq : text.length = max width key.length

/-- The piece of text that a line is. -/
inductive Line.Piece : Line → String → Prop where
  | entry {column : Nat} {key text : String} (h : Padded column key text) (value : String) :
      Piece (.entry key value column) ("    " ++ text ++ " " ++ value ++ "\n")
  | emptyComment : Piece (.comment "") "    #\n"
  | comment {text : String} (h : text ≠ "") : Piece (.comment text) ("    # " ++ text ++ "\n")
  | verbatim (text : String) : Piece (.verbatim text) ("    " ++ text ++ "\n")

theorem padded_padRight (width : Nat) (key : String) :
    Padded width key (Line.padRight width key) where
  spaces := ⟨width - key.length, rfl⟩
  length_eq := by
    rw [Line.padRight, String.length_append, String.length_ofList, List.length_replicate]
    omega

theorem Line.piece_render (l : Line) : l.Piece l.render := by
  cases l with
  | entry key value column =>
      have hrender : (Line.entry key value column).render =
          "    " ++ padRight column key ++ " " ++ value ++ "\n" := by
        simp only [render, indent, text, String.append_assoc]
      rw [hrender]
      exact .entry (padded_padRight column key) value
  | comment text =>
      by_cases h : text = ""
      · rw [h]
        exact .emptyComment
      · have hrender : (Line.comment text).render = "    # " ++ text ++ "\n" := by
          simp only [render, Line.text, if_neg h, ← String.append_assoc]
          rfl
        rw [hrender]
        exact .comment h
  | verbatim text => exact .verbatim text

namespace Section

/-! ## What edits do -/

namespace Edit

/-- The column that an edit puts in force. -/
def column? : Edit → Option Nat
  | .aligned column => some column
  | _ => none

/-- The line that an edit adds while a column is in force. -/
def line? (column : Nat) : Edit → Option Line
  | .aligned _ => none
  | .entry key value => some (.entry key value column)
  | .entryAt own key value => some (.entry key value own)
  | .comment text => some (.comment text)
  | .verbatim text => some (.verbatim text)

/-- The key and value that an edit adds. -/
def keyValue? : Edit → Option (String × String)
  | .entry key value => some (key, value)
  | .entryAt _ key value => some (key, value)
  | _ => none

end Edit

/-- The column in force after edits: the last that was put in force, and none at first. -/
def columnAfter (edits : List Edit) : Nat :=
  (edits.filterMap Edit.column?).getLast?.getD 0

/-- The lines that edits add, each with the column that those before it leave in force. -/
def linesOf (edits : List Edit) : List Line :=
  (edits.inits.zip edits).filterMap fun (before, e) => e.line? (columnAfter before)

/-- All that an edit does. -/
theorem edit_eq (s : Section) (e : Edit) :
    s.edit e =
      { kind := s.kind, column := e.column?.getD s.column,
        lines := s.lines ++ (e.line? s.column).toList } := by
  cases e with
  | aligned column => simp [edit, aligned, Edit.column?, Edit.line?]
  | _ => rfl

theorem columnAfter_concat (edits : List Edit) (e : Edit) :
    columnAfter (edits ++ [e]) = e.column?.getD (columnAfter edits) := by
  rw [columnAfter, List.filterMap_append]
  cases h : e.column? with
  | none => simp [h, columnAfter]
  | some column => simp [h]

theorem zip_inits_concat {α : Type} (l : List α) (a : α) :
    (l ++ [a]).inits.zip (l ++ [a]) = l.inits.zip l ++ [(l, a)] := by
  induction l with
  | nil => rfl
  | cons b l ih =>
      rw [List.cons_append, List.inits_cons, List.zip_cons_cons, List.zip_map_left, ih,
        List.map_append, List.inits_cons, List.zip_cons_cons, List.zip_map_left]
      rfl

theorem linesOf_concat (edits : List Edit) (e : Edit) :
    linesOf (edits ++ [e]) = linesOf edits ++ (e.line? (columnAfter edits)).toList := by
  rw [linesOf, zip_inits_concat, List.filterMap_append]
  cases h : e.line? (columnAfter edits) <;> simp [h, linesOf]

/-- A section made by edits, without making it. -/
theorem ofEdits_eq (kind : Kind) (edits : List Edit) :
    ofEdits kind edits = { kind, column := columnAfter edits, lines := linesOf edits } := by
  induction edits using List.reverseRecOn with
  | nil => rfl
  | append_singleton edits e ih =>
      rw [columnAfter_concat, linesOf_concat]
      calc ofEdits kind (edits ++ [e])
          = (ofEdits kind edits).edit e := by simp [ofEdits]
        _ = _ := by rw [ih, edit_eq]

/-! ## What is read off the log -/

theorem forall₂_piece_render (ls : List Line) :
    List.Forall₂ Line.Piece ls (ls.map Line.render) := by
  rw [List.forall₂_map_right_iff, List.forall₂_same]
  exact fun l _ => l.piece_render

theorem render_ofEdits (kind : Kind) (edits : List Edit) :
    (ofEdits kind edits).render =
      "\n[" ++ kind.header ++ "]\n" ++ String.join ((linesOf edits).map Line.render) := by
  rw [ofEdits_eq]
  rfl

/-- Edits that follow put lines behind those that are there. -/
theorem exists_linesOf_append (edits more : List Edit) :
    ∃ later, linesOf (edits ++ more) = linesOf edits ++ later := by
  induction more using List.reverseRecOn with
  | nil => exact ⟨[], by rw [List.append_nil, List.append_nil]⟩
  | append_singleton more e ih =>
      obtain ⟨later, hlater⟩ := ih
      refine ⟨later ++ (e.line? (columnAfter (edits ++ more))).toList, ?_⟩
      rw [← List.append_assoc, linesOf_concat, hlater, List.append_assoc]

theorem filterMap_keyValue?_linesOf (edits : List Edit) :
    (linesOf edits).filterMap Line.keyValue? = edits.filterMap Edit.keyValue? := by
  induction edits using List.reverseRecOn with
  | nil => rfl
  | append_singleton edits e ih =>
      rw [linesOf_concat, List.filterMap_append, List.filterMap_append, ih]
      cases e <;> rfl

/-- A value is got for a key if it is that of the first entry with the key. -/
theorem get?_eq_some_iff {s : Section} {key value : String} :
    s.get? key = some value ↔ ∃ before after, s.entries = before ++ (key, value) :: after ∧
      ∀ e ∈ before, e.1 ≠ key := by
  unfold get?
  rw [Option.map_eq_some_iff]
  constructor
  · rintro ⟨⟨key', value'⟩, hfind, rfl⟩
    obtain ⟨hkey, before, after, hentries, hbefore⟩ := List.find?_eq_some_iff_append.mp hfind
    obtain rfl := of_decide_eq_true hkey
    exact ⟨before, after, hentries, fun e he => by simpa using hbefore e he⟩
  · rintro ⟨before, after, hentries, hbefore⟩
    refine ⟨(key, value), List.find?_eq_some_iff_append.mpr ⟨?_, before, after, hentries, ?_⟩, rfl⟩
    · exact decide_eq_true rfl
    · intro e he
      simpa using hbefore e he

/-- A section made by edits is a log of them, with these pieces of text in it. -/
structure Logged (kind : Kind) (edits : List Edit) (pieces : List String) : Prop where
  /-- There is one piece for each line that was added. -/
  each : List.Forall₂ Line.Piece (linesOf edits) pieces
  text : (ofEdits kind edits).render = "\n[" ++ kind.header ++ "]\n" ++ String.join pieces
  /-- The pieces stay as they are whatever is added to them. -/
  kept : ∀ more, ∃ later, List.Forall₂ Line.Piece (linesOf (edits ++ more)) (pieces ++ later) ∧
    (ofEdits kind (edits ++ more)).render =
      "\n[" ++ kind.header ++ "]\n" ++ String.join (pieces ++ later)
  aligned : ∀ column, ((ofEdits kind edits).aligned column).render = (ofEdits kind edits).render
  entries : (ofEdits kind edits).entries = edits.filterMap Edit.keyValue?
  get : ∀ key value, (ofEdits kind edits).get? key = some value ↔
    ∃ before after, edits.filterMap Edit.keyValue? = before ++ (key, value) :: after ∧
      ∀ e ∈ before, e.1 ≠ key
  /-- Sections are equal when they are of one kind, with the same lines at the same columns and the
  same column for the next one. -/
  equal : ∀ kind' edits', ofEdits kind edits = ofEdits kind' edits' ↔
    kind = kind' ∧ columnAfter edits = columnAfter edits' ∧ linesOf edits = linesOf edits'
  render_eq : ∀ other, ofEdits kind edits = other → (ofEdits kind edits).render = other.render

/-- **A section is a log of the edits that made it.** Whatever the edits are and in whatever order,
the text is the header and a piece for each edit that adds one, laid out by the column that was in
force when it was added, and nothing that is done later changes it. -/
theorem logged_ofEdits (kind : Kind) (edits : List Edit) :
    Logged kind edits ((linesOf edits).map Line.render) where
  each := forall₂_piece_render _
  text := render_ofEdits kind edits
  kept more := by
    obtain ⟨later, hlater⟩ := exists_linesOf_append edits more
    refine ⟨later.map Line.render, ?_, ?_⟩
    · rw [← List.map_append, ← hlater]
      exact forall₂_piece_render _
    · rw [← List.map_append, ← hlater]
      exact render_ofEdits kind _
  aligned := render_aligned _
  entries := by
    rw [ofEdits_eq]
    exact filterMap_keyValue?_linesOf edits
  get key value := by
    rw [get?_eq_some_iff, ofEdits_eq]
    show (∃ before after, (linesOf edits).filterMap Line.keyValue? = _ ∧ _) ↔ _
    rw [filterMap_keyValue?_linesOf]
  equal kind' edits' := by
    rw [ofEdits_eq, ofEdits_eq, Section.mk.injEq]
  render_eq _ h := congrArg render h

/-- A column of its own holds for one entry, another column for those that follow, and characters
are counted. -/
example :
    (ofEdits .output [.entryAt 5 "Name" "x", .entry "id" "1", .aligned 4, .entry "été" "2",
      .comment "", .entry "header" "3"]).render =
      "\n[OUTPUT]\n    Name  x\n    id 1\n    été  2\n    #\n    header 3\n" := by
  decide

end Section

end LogShipper
