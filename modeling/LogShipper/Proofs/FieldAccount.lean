import LogShipper.Proofs.Pieces
import LogShipper.Proofs.Written
import Mathlib.Data.List.Forall2

/-!
# The account of field directives

Two lists are gone through piece by piece, and every piece becomes one thing: a directive when there
is a colon in it, and a warning otherwise. Here it is said without the parser what a piece becomes.
The sections and the warnings of a snapshot are then what its pieces have become, in their order, so
pieces that only gave warnings can be taken out of the lists and the sections stay.
-/

namespace LogShipper

/-! ## What a piece becomes -/

/-- A piece is over with as a directive, given by its word and value, or as a warning. -/
inductive PieceFate where
  | directive (word value : String)
  | warning (skipped : SkippedPiece)

namespace PieceFate

def directive? : PieceFate → Option (String × String)
  | .directive word value => some (word, value)
  | .warning _ => none

def warning? : PieceFate → Option SkippedPiece
  | .directive _ _ => none
  | .warning skipped => some skipped

/-- The section that holds the directives among some fates, if there are any. -/
def block (fates : List PieceFate) : List Section :=
  match fates.filterMap directive? with
  | [] => []
  | ds => [modifySection ds]

end PieceFate

/-- What a piece of a setting becomes. The key ends at the first colon, and the warning has the
piece with the blanks around it. -/
inductive Becomes (setting word : String) : String → PieceFate → Prop where
  | directive {key value : String} (hkey : ':' ∉ key.toList) :
      Becomes setting word (key ++ ":" ++ value)
        (.directive word (Text.trimmed key ++ " " ++ Text.trimmed value))
  | warning {piece : String} (hpiece : ':' ∉ piece.toList) :
      Becomes setting word piece
        (.warning
          { setting, piece, complaint := "Expected format 'key:value', got '" ++ piece ++ "'" })

/-- What becomes of the pieces of a list, one by one and in order. An empty list is passed over. -/
structure Fates (setting word list : String) (fates : List PieceFate) : Prop where
  none_of_empty : list = "" → fates = []
  each : list ≠ "" → List.Forall₂ (Becomes setting word) (Text.splitPieces ',' list) fates

/-- The changes are what has become of the pieces of the two lists. -/
structure FieldAccount (s : Settings) (changes : FieldChanges)
    (added replaced : List PieceFate) : Prop where
  fates_added : Fates "ADDITIONAL_FIELDS" "Add" (s.value .additionalFields) added
  fates_replaced : Fates "SET_FIELDS" "Set" (s.value .setFields) replaced
  sections : changes.sections =
    modifySection [("Rename", "log message")] ::
      (PieceFate.block added ++ PieceFate.block replaced)
  skipped : changes.skipped =
    added.filterMap PieceFate.warning? ++ replaced.filterMap PieceFate.warning?

/-! ## The parser of pieces -/

namespace FieldDirective

theorem isSome_parse?_iff (piece : String) :
    (parse? piece).isSome = true ↔ ':' ∈ piece.toList := by
  rw [parse?, Option.isSome_map, Text.cutAt?_isSome_iff]

/-- What is parsed stands before and after the first colon. -/
theorem exists_of_parse? {piece : String} {d : FieldDirective} (h : parse? piece = some d) :
    ∃ key value, ':' ∉ key.toList ∧ piece = key ++ ":" ++ value ∧
      d = { key := Text.trimmed key, value := Text.trimmed value } := by
  obtain ⟨⟨a, b⟩, hcut, rfl⟩ := Option.map_eq_some_iff.mp h
  refine ⟨String.ofList a, String.ofList b, ?_, ?_, ?_⟩
  · rw [String.toList_ofList]
    exact Text.not_mem_of_cutAt? hcut
  · apply String.toList_injective
    rw [Text.eq_append_of_cutAt? hcut]
    simp
  · simp [Text.trimmed]

/-- A text with a colon has a first one. -/
theorem exists_append_of_mem {piece : String} (h : ':' ∈ piece.toList) :
    ∃ key value, ':' ∉ key.toList ∧ piece = key ++ ":" ++ value := by
  obtain ⟨d, hparse⟩ := Option.isSome_iff_exists.mp ((isSome_parse?_iff piece).mpr h)
  obtain ⟨key, value, hkey, hpiece, -⟩ := exists_of_parse? hparse
  exact ⟨key, value, hkey, hpiece⟩

theorem parse?_append {key : String} (hkey : ':' ∉ key.toList) (value : String) :
    parse? (key ++ ":" ++ value) =
      some { key := Text.trimmed key, value := Text.trimmed value } := by
  have hlist : (key ++ ":" ++ value).toList = key.toList ++ ':' :: value.toList := by simp
  rw [parse?, hlist, Text.cutAt?_append_cons hkey]
  rfl

end FieldDirective

/-- The directives of a list are those of its pieces with a colon. -/
theorem mem_directiveTexts_iff {list text : String} :
    text ∈ directiveTexts list ↔
      ∃ key value, key ++ ":" ++ value ∈ Text.splitPieces ',' list ∧ ':' ∉ key.toList ∧
        text = Text.trimmed key ++ " " ++ Text.trimmed value := by
  rw [← FieldChanges.map_text_directives, FieldChanges.directives_eq]
  constructor
  · intro hd
    obtain ⟨directive, hdirective, rfl⟩ := List.mem_map.mp hd
    obtain ⟨piece, hpiece, hparse⟩ := List.mem_filterMap.mp hdirective
    obtain ⟨key, value, hkey, rfl, rfl⟩ := FieldDirective.exists_of_parse? hparse
    exact ⟨key, value, hpiece, hkey, rfl⟩
  · rintro ⟨key, value, hpiece, hkey, rfl⟩
    exact List.mem_map.mpr ⟨_, List.mem_filterMap.mpr
      ⟨_, hpiece, FieldDirective.parse?_append hkey value⟩, rfl⟩

namespace FieldChanges

/-- What the program makes of a piece. -/
def fate (setting : Setting) (word piece : String) : PieceFate :=
  match FieldDirective.parse? piece with
  | some d => .directive word d.text
  | none =>
    .warning { setting := setting.name, piece, complaint := FieldDirective.complaint piece }

theorem becomes_fate (setting : Setting) (word piece : String) :
    Becomes setting.name word piece (fate setting word piece) := by
  unfold fate
  cases hparse : FieldDirective.parse? piece with
  | some d =>
      obtain ⟨key, value, hkey, rfl, rfl⟩ := FieldDirective.exists_of_parse? hparse
      exact .directive hkey
  | none =>
      apply Becomes.warning
      rw [← FieldDirective.isSome_parse?_iff, hparse]
      exact Bool.false_ne_true

theorem fates_fate (setting : Setting) (word list : String) :
    Fates setting.name word list ((pieces list).map (fate setting word)) where
  none_of_empty h := by
    rw [pieces, if_pos h]
    rfl
  each h := by
    rw [pieces, if_neg h, List.forall₂_map_right_iff, List.forall₂_same]
    intro piece _
    exact becomes_fate setting word piece

/-! ## Sections and warnings as fates -/

section

variable (setting : Setting) (word list : String)

theorem filterMap_directive?_fate :
    ((pieces list).map (fate setting word)).filterMap PieceFate.directive? =
      (directiveTexts list).map (word, ·) := by
  have hfate : ∀ piece, (fate setting word piece).directive? =
      (FieldDirective.parse? piece).map fun d => (word, d.text) := by
    intro piece
    unfold fate
    cases FieldDirective.parse? piece <;> rfl
  rw [← map_text_directives, directives, List.map_map, List.map_filterMap, List.filterMap_map]
  exact List.filterMap_congr fun piece _ => hfate piece

theorem filterMap_warning?_fate :
    ((pieces list).map (fate setting word)).filterMap PieceFate.warning? =
      skippedOf setting list := by
  have hwarned : ∀ piece, (fate setting word piece).warning? =
      if (FieldDirective.parse? piece).isNone then
        some { setting := setting.name, piece, complaint := FieldDirective.complaint piece }
      else none := by
    intro piece
    unfold fate
    cases FieldDirective.parse? piece <;> rfl
  rw [List.filterMap_map, skippedOf, ← List.filterMap_eq_map, List.filterMap_filter]
  exact List.filterMap_congr fun piece _ => hwarned piece

/-- The section for a list is there when a piece became a directive, and holds all of these. -/
theorem toList_block?_eq_block :
    (block? word list).toList = PieceFate.block ((pieces list).map (fate setting word)) := by
  rw [block?_eq_ite, PieceFate.block, filterMap_directive?_fate]
  cases directiveTexts list with
  | nil => rfl
  | cons text texts => rw [if_neg (List.cons_ne_nil _ _), Option.toList_some, List.map_cons]

end

theorem fieldAccount_fate (s : Settings) :
    FieldAccount s (ofSettings s)
      ((pieces (s.value .additionalFields)).map (fate .additionalFields "Add"))
      ((pieces (s.value .setFields)).map (fate .setFields "Set")) where
  fates_added := fates_fate .additionalFields "Add" _
  fates_replaced := fates_fate .setFields "Set" _
  sections := by
    rw [sections_ofSettings, ← toList_block?_eq_block, ← toList_block?_eq_block]
    rfl
  skipped := by
    rw [filterMap_warning?_fate, filterMap_warning?_fate]
    simp [ofSettings, groups]

/-! ## Lists without malformed pieces -/

/-- The list without the pieces that have no colon. -/
def wellFormed (list : String) : String :=
  ",".intercalate ((Text.splitPieces ',' list).filter fun piece => ':' ∈ piece.toList)

theorem pieces_wellFormed (list : String) :
    pieces (wellFormed list) =
      (Text.splitPieces ',' list).filter fun piece => ':' ∈ piece.toList := by
  rw [wellFormed]
  generalize hkept :
    (Text.splitPieces ',' list).filter (fun piece => decide (':' ∈ piece.toList)) = kept
  have hcolon : ∀ piece ∈ kept, ':' ∈ piece.toList := by
    rw [← hkept]
    intro piece hpiece
    exact of_decide_eq_true (List.mem_filter.mp hpiece).2
  by_cases hne : kept = []
  · rw [hne]
    rfl
  · have hpieces : ∀ piece ∈ kept, piece ∈ Text.splitPieces ',' list := by
      rw [← hkept]
      exact fun piece hpiece => List.mem_of_mem_filter hpiece
    have hsplit : Text.splitPieces ',' (",".intercalate kept) = kept :=
      Text.splitPieces_intercalate hne hpieces
    -- The joined text is not empty, since the empty text has a piece without a colon.
    have htext : ",".intercalate kept ≠ "" := by
      intro hempty
      rw [hempty] at hsplit
      have hmem : "" ∈ kept := hsplit ▸ List.mem_singleton_self ""
      exact absurd (hcolon "" hmem) (by decide)
    rw [pieces, if_neg htext, hsplit]

theorem directives_wellFormed (list : String) :
    directives (wellFormed list) = directives list := by
  rw [directives, pieces_wellFormed, directives_eq, List.filterMap_filter]
  apply List.filterMap_congr
  intro piece _
  by_cases hcolon : ':' ∈ piece.toList
  · rw [if_pos (decide_eq_true hcolon)]
  · rw [if_neg (by simpa using hcolon), eq_comm, ← Option.not_isSome_iff_eq_none,
      FieldDirective.isSome_parse?_iff]
    exact hcolon

theorem skippedOf_wellFormed (setting : Setting) (list : String) :
    skippedOf setting (wellFormed list) = [] := by
  rw [skippedOf, pieces_wellFormed, List.map_eq_nil_iff, List.filter_eq_nil_iff]
  intro piece hpiece
  have hcolon := (FieldDirective.isSome_parse?_iff piece).mpr
    (of_decide_eq_true (List.mem_filter.mp hpiece).2)
  rw [Option.isNone_iff_eq_none, ← Option.not_isSome_iff_eq_none]
  exact not_not_intro hcolon

end FieldChanges

/-- The snapshot with the malformed pieces taken out of both lists of directives. -/
def Settings.withoutMalformed (s : Settings) : Settings :=
  ⟨fun k =>
    if k = .additionalFields ∨ k = .setFields then FieldChanges.wellFormed (s.value k)
    else s.value k⟩

theorem FieldChanges.ofSettings_withoutMalformed (s : Settings) :
    ofSettings s.withoutMalformed = { sections := (ofSettings s).sections, skipped := [] } := by
  have hadded : s.withoutMalformed.value .additionalFields =
      wellFormed (s.value .additionalFields) := rfl
  have hset : s.withoutMalformed.value .setFields = wellFormed (s.value .setFields) := rfl
  have hsections : (ofSettings s.withoutMalformed).sections = (ofSettings s).sections := by
    rw [sections_ofSettings, sections_ofSettings, hadded, hset]
    simp only [block?, directives_wellFormed]
  have hskipped : (ofSettings s.withoutMalformed).skipped = [] := by
    simp only [ofSettings, groups, List.flatMap_cons, List.flatMap_nil, hadded, hset,
      skippedOf_wellFormed, List.append_nil]
  rw [← hsections, ← hskipped]

/-- All sections of the document stay, since the other ones do not read the lists. -/
theorem Settings.sections_withoutMalformed (s : Settings) :
    s.withoutMalformed.sections = s.sections := by
  unfold sections
  rw [FieldChanges.ofSettings_withoutMalformed]
  rfl

/-- **Every piece is accounted for.** The changes of a snapshot are what its pieces become, one by
one and in order: directives in one section for each list, and warnings behind each other. Without
the malformed pieces the sections are the same and there is no warning. -/
theorem fieldChanges_accounted (s : Settings) :
    (∃ added replaced, FieldAccount s (FieldChanges.ofSettings s) added replaced) ∧
      FieldChanges.ofSettings s.withoutMalformed =
        { sections := (FieldChanges.ofSettings s).sections, skipped := [] } ∧
      s.withoutMalformed.sections = s.sections :=
  ⟨⟨_, _, FieldChanges.fieldAccount_fate s⟩, FieldChanges.ofSettings_withoutMalformed s,
    s.sections_withoutMalformed⟩

end LogShipper
