import LogShipper.Proofs.Pieces
import LogShipper.Proofs.Validity
import LogShipper.Proofs.Written

/-!
# The order of the sections

The main document is a selection from eleven parts in a fixed order. Each part comes with the
condition under which it is due and with the section it is, both said from the settings alone. A
filter is due for a pattern, or for a list of exclusions with a piece that is not blank; a section
of field directives is due for a list with a colon in it.
-/

namespace LogShipper

/-! ## When there is something to write -/

namespace Settings

/-- Something is said about a subject: a pattern is given, or a list of exclusions that are not all
blank. -/
def Selects (s : Settings) (subject : Subject) : Prop :=
  s.value subject.matchSetting ≠ "" ∨
    ∃ piece ∈ Text.splitPieces ',' (s.value subject.skipSetting),
      ¬ piece.toList.all Text.isBlank = true

instance (s : Settings) (subject : Subject) : Decidable (s.Selects subject) :=
  inferInstanceAs (Decidable (_ ∨ _))

theorem exclusions_ne_nil_iff (list : String) :
    exclusions list ≠ [] ↔
      ∃ piece ∈ Text.splitPieces ',' list, ¬ piece.toList.all Text.isBlank = true := by
  rw [exclusions, ne_eq, List.map_eq_nil_iff, List.filter_eq_nil_iff]
  simp

/-- There are rules for a subject exactly when something is said about it. -/
theorem rulesFor_ne_nil_iff (s : Settings) (subject : Subject) :
    s.rulesFor subject ≠ [] ↔ s.Selects subject := by
  unfold rulesFor Selects
  by_cases hmatch : s.value subject.matchSetting ≠ ""
  · rw [if_pos hmatch]
    exact iff_of_true (List.cons_ne_nil _ _) (Or.inl hmatch)
  · rw [if_neg hmatch, or_iff_right hmatch, ← exclusions_ne_nil_iff, ne_eq, List.map_eq_nil_iff]

end Settings

/-- A list gives directives exactly when there is a colon in it. -/
theorem directiveTexts_ne_nil_iff (list : String) :
    directiveTexts list ≠ [] ↔ ':' ∈ list.toList := by
  have hpiece : ∀ piece, directiveText? piece = none ↔ ':' ∉ piece.toList := fun piece => by
    rw [directiveText?]
    split <;> simp_all
  have hmem : (∃ p ∈ Text.pieces ',' list.toList, ':' ∈ p) ↔ ':' ∈ list.toList ∧ ':' ≠ ',' :=
    Text.exists_mem_pieces_iff
  rw [directiveTexts, ne_eq, List.filterMap_eq_nil_iff]
  simp only [hpiece, not_forall, not_not, exists_prop, Text.splitPieces, List.mem_map]
  simpa using hmem

/-! ## The parts -/

/-- A part of the main document. -/
inductive MainPart where
  | service
  | input
  | metadata
  | lifting
  | filter (subject : Subject)
  | rename
  | additions
  | replacements
  | output
deriving DecidableEq, Repr

namespace MainPart

/-- The parts in the order of the document. -/
def order : List MainPart :=
  [.service, .input, .metadata, .lifting, .filter .containerName, .filter .imageName,
    .filter .logLine, .rename, .additions, .replacements, .output]

/-- When a part is in the document. Names are lifted only for filters on names. -/
def Due (s : Settings) : MainPart → Prop
  | .lifting => s.Selects .containerName ∨ s.Selects .imageName
  | .filter subject => s.Selects subject
  | .additions => ':' ∈ (s.value .additionalFields).toList
  | .replacements => ':' ∈ (s.value .setFields).toList
  | .service | .input | .metadata | .rename | .output => True

instance (s : Settings) : DecidablePred (Due s)
  | .lifting => inferInstanceAs (Decidable (_ ∨ _))
  | .filter subject => inferInstanceAs (Decidable (s.Selects subject))
  | .additions => inferInstanceAs (Decidable (_ ∈ _))
  | .replacements => inferInstanceAs (Decidable (_ ∈ _))
  | .service | .input | .metadata | .rename | .output => inferInstanceAs (Decidable True)

/-- The section that a part is. -/
def content (s : Settings) : MainPart → Section
  | .service => Blocks.service s
  | .input => Blocks.input s
  | .metadata => Blocks.metadata
  | .lifting => Blocks.lifting
  | .filter subject => grepSection subject.field (s.rulesFor subject)
  | .rename => modifySection [("Rename", "log message")]
  | .additions => modifySection ((directiveTexts (s.value .additionalFields)).map ("Add", ·))
  | .replacements => modifySection ((directiveTexts (s.value .setFields)).map ("Set", ·))
  | .output => Blocks.output s

/-- The sections of the parts in a list that are due. -/
def due (s : Settings) (parts : List MainPart) : List Section :=
  (parts.filter fun p => Due s p).map (content s)

theorem due_append (s : Settings) (a b : List MainPart) : due s (a ++ b) = due s a ++ due s b := by
  rw [due, List.filter_append, List.map_append]
  rfl

theorem due_singleton (s : Settings) (p : MainPart) :
    due s [p] = if Due s p then [p.content s] else [] := by
  unfold due
  by_cases h : Due s p
  · rw [if_pos h, List.filter_cons_of_pos (by simpa using h)]
    rfl
  · rw [if_neg h, List.filter_cons_of_neg (by simpa using h)]
    rfl

/-- Every part stands once in the order. -/
theorem filter_order_eq (p : MainPart) : order.filter (· = p) = [p] := by
  cases p with
  | filter subject => cases subject <;> decide
  | _ => decide

theorem mem_order (p : MainPart) : p ∈ order := by
  have hmem : p ∈ order.filter (· = p) := by
    rw [filter_order_eq]
    exact List.mem_singleton_self p
  exact List.mem_of_mem_filter hmem

/-- A property that the section of one part alone has, among those that are due, picks that one. -/
theorem filter_due_order {s : Settings} {P : Section → Prop} [DecidablePred P] {p : MainPart}
    (h : ∀ q, Due s q → (P (q.content s) ↔ q = p)) :
    (due s order).filter (fun sec => P sec) = due s [p] := by
  have hparts : (order.filter fun q => Due s q).filter (fun q => P (q.content s)) =
      (order.filter fun q => Due s q).filter (· = p) := by
    apply List.filter_congr
    intro q hq
    exact decide_eq_decide.mpr (h q (by simpa using List.of_mem_filter hq))
  calc (due s order).filter (fun sec => P sec)
      = ((order.filter fun q => Due s q).filter fun q => P (q.content s)).map (content s) :=
        List.filter_map
    _ = ((order.filter (· = p)).filter fun q => Due s q).map (content s) := by
        rw [hparts, List.filter_comm]
    _ = due s [p] := by
        rw [filter_order_eq]
        rfl

end MainPart

open MainPart

theorem Settings.toList_filter? (s : Settings) (subject : Subject) :
    (s.filter? subject).toList = due s [.filter subject] := by
  have hdue : Due s (.filter subject) ↔ ¬ s.rulesFor subject = [] :=
    (s.rulesFor_ne_nil_iff subject).symm
  rw [filter?_eq_ite, due_singleton]
  by_cases h : s.rulesFor subject = []
  · rw [if_pos h, if_neg (fun hd => hdue.mp hd h)]
    rfl
  · rw [if_neg h, if_pos (hdue.mpr h)]
    rfl

theorem Settings.nameFilters_eq_due (s : Settings) :
    s.nameFilters = due s [.lifting, .filter .containerName, .filter .imageName] := by
  have hsplit : due s [.lifting, .filter .containerName, .filter .imageName] =
      due s [.lifting] ++ ((s.filter? .containerName).toList ++ (s.filter? .imageName).toList) := by
    rw [toList_filter?, toList_filter?, ← due_append, ← due_append]
    rfl
  -- Names are lifted exactly when one of the two filters on them is there.
  have hnil : (s.filter? .containerName).toList ++ (s.filter? .imageName).toList = [] ↔
      ¬ Due s .lifting := by
    rw [List.append_eq_nil_iff, toList_filter?, toList_filter?, due_singleton, due_singleton]
    by_cases hc : s.Selects .containerName <;> by_cases hi : s.Selects .imageName <;>
      simp [Due, hc, hi]
  rw [nameFilters_eq_ite, hsplit, due_singleton]
  by_cases h : Due s .lifting
  · rw [if_neg (fun hn => hnil.mp hn h), if_pos h]
    rfl
  · rw [if_pos (hnil.mpr h), if_neg h, hnil.mpr h]
    rfl

/-- A section of field directives is in the document when its part is due. -/
theorem FieldChanges.toList_block? {s : Settings} {p : MainPart} {word list : String}
    (hdue : Due s p ↔ ':' ∈ list.toList)
    (hcontent : p.content s = modifySection ((directiveTexts list).map (word, ·))) :
    (block? word list).toList = due s [p] := by
  rw [block?_eq_ite, due_singleton, hcontent]
  by_cases h : directiveTexts list = []
  · rw [if_pos h, if_neg fun hd => (directiveTexts_ne_nil_iff list).mpr (hdue.mp hd) h]
    rfl
  · rw [if_neg h, if_pos (hdue.mpr ((directiveTexts_ne_nil_iff list).mp h))]
    rfl

theorem Settings.sections_eq_due (s : Settings) : s.sections = due s order := by
  have hadd : (FieldChanges.block? "Add" (s.value .additionalFields)).toList =
      due s [.additions] := FieldChanges.toList_block? Iff.rfl rfl
  have hset : (FieldChanges.block? "Set" (s.value .setFields)).toList =
      due s [.replacements] := FieldChanges.toList_block? Iff.rfl rfl
  calc s.sections
      = due s [.service, .input, .metadata] ++ s.nameFilters ++ (s.filter? .logLine).toList ++
          (FieldChanges.ofSettings s).sections ++ due s [.output] := rfl
    _ = due s [.service, .input, .metadata] ++
          due s [.lifting, .filter .containerName, .filter .imageName] ++
          due s [.filter .logLine] ++ (due s [.rename] ++ (due s [.additions] ++
          due s [.replacements])) ++ due s [.output] := by
        rw [nameFilters_eq_due, toList_filter?, FieldChanges.sections_ofSettings, hadd, hset]
        rfl
    _ = due s order := by
        simp only [← due_append]
        rfl

/-- What is read off the sections of the document is read off the parts that are due. -/
theorem Settings.mem_flatMap_sections {α : Type} {s : Settings} {f : Section → List α} {x : α} :
    x ∈ s.sections.flatMap f ↔ ∃ p, Due s p ∧ x ∈ f (p.content s) := by
  rw [sections_eq_due, List.mem_flatMap]
  constructor
  · rintro ⟨sec, hsec, hx⟩
    obtain ⟨p, hp, rfl⟩ := List.mem_map.mp hsec
    exact ⟨p, of_decide_eq_true (List.mem_filter.mp hp).2, hx⟩
  · rintro ⟨p, hdue, hx⟩
    have hp : p ∈ order.filter fun q => Due s q :=
      List.mem_filter.mpr ⟨mem_order p, decide_eq_true hdue⟩
    exact ⟨p.content s, List.mem_map_of_mem hp, hx⟩

/-- **The order of the sections is fixed.** A valid snapshot is compiled to exactly the parts that
are due, in the order of the parts, and the main document is their texts one after the other. -/
theorem compiled_sections_are_due_parts {s : Settings} {c : Compiled} (h : s.compile = .ok c) :
    c.sections = (MainPart.order.filter fun p => MainPart.Due s p).map (MainPart.content s) ∧
      c.main = String.join (c.sections.map Section.render) := by
  obtain ⟨-, rfl⟩ := Settings.compile_eq_ok_iff.mp h
  exact ⟨s.sections_eq_due, rfl⟩

/-- A snapshot with a list of blanks, a list of exclusions, a piece without a colon and a proper
directive. -/
def mixedLists : Settings :=
  .ofSource (.ofList [("SKIP_CONTAINER_NAMES", " , "), ("SKIP_IMAGE_NAMES", "redis, ,db "),
    ("EXCLUDE_LINES", "DEBUG"), ("ADDITIONAL_FIELDS", "team"), ("SET_FIELDS", "env:prod")])

/-- The blank list gives no filter and the piece without a colon no section; names are lifted for
the filter on images. -/
theorem compiled_mixedLists :
    mixedLists.compile = .ok mixedLists.documents ∧
      mixedLists.documents.sections =
        [.service, .input, .metadata, .lifting, .filter .imageName, .filter .logLine, .rename,
          .replacements, .output].map (MainPart.content mixedLists) := by
  have hvalid : mixedLists.compile = .ok mixedLists.documents :=
    Settings.compile_of_valid (by decide)
  have hdue : (MainPart.order.filter fun p => MainPart.Due mixedLists p) =
      [.service, .input, .metadata, .lifting, .filter .imageName, .filter .logLine, .rename,
        .replacements, .output] := by decide +kernel
  refine ⟨hvalid, ?_⟩
  rw [(compiled_sections_are_due_parts hvalid).1, hdue]

end LogShipper
