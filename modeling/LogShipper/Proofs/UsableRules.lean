import LogShipper.Proofs.FieldAccount
import LogShipper.Proofs.SelectionRules

/-!
# Rules with their operands

A rule of a filter is of no use without a pattern behind its field, and a directive without a key in
front of its value. Blank pieces are taken out of a list of exclusions, so what is left has its
pattern. A single pattern and a key are only trimmed, and nobody looks whether something is left.
Rules without their operand come from there and from nowhere else: from a pattern that is given and
blank, and from a piece with nothing in front of its first colon.
-/

namespace LogShipper

/-! ## Operands -/

namespace Text

theorem Bare.append_ne {t : String} (h : Bare t) (rest rest' : String) :
    t ++ rest ≠ " " ++ rest' := by
  intro heq
  have hlist := congrArg String.toList heq
  rw [String.toList_append, String.toList_append] at hlist
  rcases htext : t.toList with _ | ⟨c, cs⟩
  · exact h.nonempty (String.toList_eq_nil_iff.mp htext)
  · rw [htext] at hlist
    obtain rfl : c = ' ' := (List.cons.inj hlist).1
    exact h.head ' ' (by rw [htext]; rfl) (by decide)

/-- Nothing but blanks stands before the first colon. -/
def Keyless (piece : String) : Prop :=
  ':' ∈ piece.toList ∧ (piece.toList.takeWhile (· ≠ ':')).all isBlank = true

instance : DecidablePred Keyless := fun _ => inferInstanceAs (Decidable (_ ∧ _))

theorem colon_not_mem_of_blank {t : String} (h : t.toList.all isBlank = true) : ':' ∉ t.toList :=
  fun hcolon => absurd (List.all_eq_true.mp h ':' hcolon) (by decide)

theorem keyless_append_iff {key : String} (hkey : ':' ∉ key.toList) (value : String) :
    Keyless (key ++ ":" ++ value) ↔ key.toList.all isBlank = true := by
  have hlist : (key ++ ":" ++ value).toList = key.toList ++ ':' :: value.toList := by simp
  have htake : (key.toList ++ ':' :: value.toList).takeWhile (· ≠ ':') = key.toList := by
    rw [List.takeWhile_append_of_pos, List.takeWhile_cons_of_neg (by simp), List.append_nil]
    intro c hc
    exact decide_eq_true fun heq => hkey (heq ▸ hc)
  rw [Keyless, hlist, htake]
  exact and_iff_right (List.mem_append_right _ List.mem_cons_self)

end Text

/-- What stands behind a field is read off the text, and so is the field. -/
theorem Subject.field_append_inj {a b : Subject} {p q : String} :
    a.field ++ " " ++ p = b.field ++ " " ++ q ↔ a = b ∧ p = q := by
  constructor
  · intro h
    have hprefix : (a.field ++ " ").toList <+: (b.field ++ " " ++ q).toList := by
      rw [← h]
      exact ⟨p.toList, String.toList_append.symm⟩
    obtain rfl := field_prefix_iff.mp hprefix
    exact ⟨rfl, (String.append_right_inj _).mp h⟩
  · rintro ⟨rfl, rfl⟩
    rfl

/-- A text is a field and a pattern behind it. -/
def HasPattern (text : String) : Prop :=
  ∃ (subject : Subject) (pattern : String),
    text = subject.field ++ " " ++ pattern ∧ Text.Bare pattern

/-- A text is a key and a value behind it, as a piece of the list gives them. -/
def NamesKey (list text : String) : Prop :=
  ∃ key value, key ++ ":" ++ value ∈ Text.splitPieces ',' list ∧ ':' ∉ key.toList ∧
    text = Text.trimmed key ++ " " ++ Text.trimmed value ∧ Text.Bare (Text.trimmed key)

theorem hasPattern_append_iff (subject : Subject) (pattern : String) :
    HasPattern (subject.field ++ " " ++ pattern) ↔ Text.Bare pattern := by
  constructor
  · rintro ⟨other, bare, heq, hbare⟩
    rwa [(Subject.field_append_inj.mp heq).2]
  · intro hbare
    exact ⟨subject, pattern, rfl, hbare⟩

/-! ## Rules and directives of documents -/

/-- The settings that list directives, each with the word that stands in front of them. -/
def directiveLists : List (Setting × String) :=
  [(.additionalFields, "Add"), (.setFields, "Set")]

/-- The directives by which a section changes fields: a word and what stands behind it. -/
def Section.fieldDirectives (sec : Section) : List (String × String) :=
  sec.entries.filter fun e => e.1 = "Add" ∨ e.1 = "Set"

namespace Compiled

/-- The rules of a document. -/
def selectionRules (c : Compiled) : List (String × String) :=
  c.sections.flatMap Section.selectionRules

/-- The field directives of a document. -/
def fieldDirectives (c : Compiled) : List (String × String) :=
  c.sections.flatMap Section.fieldDirectives

end Compiled

namespace MainPart

/-- The field directives of a part. -/
def directives (s : Settings) : MainPart → List (String × String)
  | .additions => (directiveTexts (s.value .additionalFields)).map ("Add", ·)
  | .replacements => (directiveTexts (s.value .setFields)).map ("Set", ·)
  | _ => []

theorem fieldDirectives_modify {word : String} (hword : word = "Add" ∨ word = "Set")
    (texts : List String) :
    (modifySection (texts.map (word, ·))).fieldDirectives = texts.map (word, ·) := by
  rw [Section.fieldDirectives, Section.entries_modify, List.filter_cons_of_neg (by decide),
    List.filter_cons_of_neg (by decide), List.filter_eq_self]
  intro d hd
  rw [fst_of_mem_map_mk hd]
  exact decide_eq_true hword

theorem fieldDirectives_content (s : Settings) (p : MainPart) :
    (p.content s).fieldDirectives = p.directives s := by
  cases p with
  | additions => exact fieldDirectives_modify (Or.inl rfl) _
  | replacements => exact fieldDirectives_modify (Or.inr rfl) _
  | _ =>
      exact filter_entries_content (P := fun key => key = "Add" ∨ key = "Set") s (by simp [keys])

end MainPart

namespace Settings

theorem mem_selectionRules_iff {s : Settings} {rule : String × String} :
    rule ∈ s.documents.selectionRules ↔
      ∃ subject, ∃ r ∈ s.rulesFor subject, rule = (r.1, subject.field ++ " " ++ r.2) := by
  show rule ∈ s.sections.flatMap Section.selectionRules ↔ _
  rw [mem_flatMap_sections]
  constructor
  · rintro ⟨p, -, hrule⟩
    rw [MainPart.selectionRules_content] at hrule
    cases p with
    | filter subject =>
        obtain ⟨r, hr, rfl⟩ := List.mem_map.mp hrule
        exact ⟨subject, r, hr, rfl⟩
    | _ => exact absurd hrule List.not_mem_nil
  · rintro ⟨subject, r, hr, rfl⟩
    refine ⟨.filter subject, (s.rulesFor_ne_nil_iff subject).mp (List.ne_nil_of_mem hr), ?_⟩
    rw [MainPart.selectionRules_content]
    exact List.mem_map_of_mem hr

theorem mem_fieldDirectives_iff {s : Settings} {d : String × String} :
    d ∈ s.documents.fieldDirectives ↔
      ∃ g ∈ directiveLists, d ∈ (directiveTexts (s.value g.1)).map (g.2, ·) := by
  show d ∈ s.sections.flatMap Section.fieldDirectives ↔ _
  rw [mem_flatMap_sections]
  constructor
  · rintro ⟨p, -, hd⟩
    rw [MainPart.fieldDirectives_content] at hd
    cases p with
    | additions => exact ⟨(.additionalFields, "Add"), by decide, hd⟩
    | replacements => exact ⟨(.setFields, "Set"), by decide, hd⟩
    | _ => exact absurd hd List.not_mem_nil
  · rintro ⟨g, hg, hd⟩
    have hcolon := (directiveTexts_ne_nil_iff (s.value g.1)).mp
      (mt List.map_eq_nil_iff.mpr (List.ne_nil_of_mem hd))
    rw [directiveLists, List.mem_cons, List.mem_singleton] at hg
    rcases hg with rfl | rfl
    · refine ⟨.additions, hcolon, ?_⟩
      rwa [MainPart.fieldDirectives_content]
    · refine ⟨.replacements, hcolon, ?_⟩
      rwa [MainPart.fieldDirectives_content]

/-- The directives under the word of a list are those of its pieces. -/
theorem group_mem_fieldDirectives_iff {s : Settings} {g : Setting × String}
    (hg : g ∈ directiveLists) {text : String} :
    (g.2, text) ∈ s.documents.fieldDirectives ↔
      ∃ key value, key ++ ":" ++ value ∈ Text.splitPieces ',' (s.value g.1) ∧ ':' ∉ key.toList ∧
        text = Text.trimmed key ++ " " ++ Text.trimmed value := by
  have hwords : ∀ g ∈ directiveLists, ∀ g' ∈ directiveLists, g.2 = g'.2 → g = g' := by
    decide
  rw [mem_fieldDirectives_iff]
  constructor
  · rintro ⟨g', hg', hd⟩
    obtain ⟨other, htext, heq⟩ := List.mem_map.mp hd
    obtain ⟨hword, rfl⟩ := Prod.mk.inj heq
    obtain rfl := hwords g' hg' g hg hword
    exact mem_directiveTexts_iff.mp htext
  · intro htext
    exact ⟨g, hg, List.mem_map_of_mem (mem_directiveTexts_iff.mpr htext)⟩

/-- The rules on the field of a subject are those for the subject. -/
theorem append_mem_selectionRules_iff {s : Settings} {subject : Subject} {word operand : String} :
    (word, subject.field ++ " " ++ operand) ∈ s.documents.selectionRules ↔
      (word, operand) ∈ s.rulesFor subject := by
  rw [mem_selectionRules_iff]
  constructor
  · rintro ⟨other, r, hr, heq⟩
    obtain ⟨rfl, htext⟩ := Prod.mk.inj heq
    obtain ⟨rfl, rfl⟩ := Subject.field_append_inj.mp htext
    exact hr
  · intro hr
    exact ⟨subject, _, hr, rfl⟩

theorem mem_rulesFor_iff {s : Settings} {subject : Subject} {rule : String × String} :
    rule ∈ s.rulesFor subject ↔
      (s.value subject.matchSetting ≠ "" ∧
        rule = ("Regex", Text.trimmed (s.value subject.matchSetting))) ∨
      (s.value subject.matchSetting = "" ∧
        ∃ piece ∈ Text.splitPieces ',' (s.value subject.skipSetting),
          ¬ piece.toList.all Text.isBlank = true ∧ rule = ("Exclude", Text.trimmed piece)) := by
  unfold rulesFor
  by_cases hmatch : s.value subject.matchSetting = ""
  · rw [if_neg (not_not_intro hmatch), exclusions, List.map_map, List.mem_map]
    simp only [hmatch, ne_eq, not_true_eq_false, false_and, true_and, false_or, List.mem_filter,
      decide_eq_true_eq, Function.comp_apply, and_assoc, @eq_comm _ rule]
  · rw [if_pos hmatch, List.mem_singleton, or_iff_left fun h => hmatch h.1, and_iff_right hmatch]

/-! ## Usable documents -/

/-- A pattern is given for a subject, but all of it is blank. -/
def BlankPattern (s : Settings) (subject : Subject) : Prop :=
  s.value subject.matchSetting ≠ "" ∧
    (s.value subject.matchSetting).toList.all Text.isBlank = true

instance (s : Settings) : DecidablePred s.BlankPattern :=
  fun _ => inferInstanceAs (Decidable (_ ∧ _))

/-- Something is given in all the places where something is needed. -/
structure GivesOperands (s : Settings) : Prop where
  patterns : ∀ subject, ¬ s.BlankPattern subject
  keys : ∀ g ∈ directiveLists, ∀ piece ∈ Text.splitPieces ',' (s.value g.1),
    ¬ Text.Keyless piece

end Settings

/-- Lists in which all pieces are blank give nothing. -/
structure BlankLists (s : Settings) (c : Compiled) : Prop where
  exclusions : ∀ subject : Subject,
    (∀ piece ∈ Text.splitPieces ',' (s.value subject.skipSetting),
      piece.toList.all Text.isBlank = true) →
      ∀ operand, ("Exclude", subject.field ++ " " ++ operand) ∉ c.selectionRules
  directives : ∀ g ∈ directiveLists,
    (∀ piece ∈ Text.splitPieces ',' (s.value g.1), piece.toList.all Text.isBlank = true) →
      ∀ text, (g.2, text) ∉ c.fieldDirectives

/-- Every rule of a document has its pattern and every directive its key, and a setting in which all
is blank gives none. -/
structure Usable (s : Settings) (c : Compiled) : Prop where
  rules : ∀ rule ∈ c.selectionRules, HasPattern rule.2
  directives : ∀ g ∈ directiveLists, ∀ text, (g.2, text) ∈ c.fieldDirectives →
    NamesKey (s.value g.1) text
  blank_pattern : ∀ subject : Subject,
    (s.value subject.matchSetting).toList.all Text.isBlank = true →
      ∀ operand, ("Regex", subject.field ++ " " ++ operand) ∉ c.selectionRules
  blank_lists : BlankLists s c

/-- The rules without a pattern are those of blank patterns, and the directives without a key those
of pieces with nothing in front of the colon. -/
structure UnusableParts (s : Settings) (c : Compiled) : Prop where
  rules : ∀ rule, rule ∈ c.selectionRules ∧ ¬ HasPattern rule.2 ↔
    ∃ subject, s.BlankPattern subject ∧ rule = ("Regex", subject.field ++ " ")
  directives : ∀ g ∈ directiveLists, ∀ text,
    (g.2, text) ∈ c.fieldDirectives ∧ ¬ NamesKey (s.value g.1) text ↔
      ∃ key value, key ++ ":" ++ value ∈ Text.splitPieces ',' (s.value g.1) ∧
        key.toList.all Text.isBlank = true ∧ text = " " ++ Text.trimmed value

namespace Settings

theorem blankLists_documents (s : Settings) : BlankLists s s.documents where
  exclusions subject hblank operand hrule := by
    rcases mem_rulesFor_iff.mp (append_mem_selectionRules_iff.mp hrule) with
      ⟨-, heq⟩ | ⟨-, piece, hpiece, hsome, -⟩
    · exact absurd (Prod.mk.inj heq).1 (by decide)
    · exact hsome (hblank piece hpiece)
  directives g hg hblank text htext := by
    obtain ⟨key, value, hpiece, -, -⟩ := (group_mem_fieldDirectives_iff hg).mp htext
    apply Text.colon_not_mem_of_blank (hblank _ hpiece)
    simp

theorem unusableParts_documents (s : Settings) : UnusableParts s s.documents where
  rules rule := by
    constructor
    · rintro ⟨hrule, hpattern⟩
      obtain ⟨subject, r, hr, rfl⟩ := mem_selectionRules_iff.mp hrule
      rw [hasPattern_append_iff] at hpattern
      rcases mem_rulesFor_iff.mp hr with ⟨hmatch, rfl⟩ | ⟨-, piece, -, hsome, rfl⟩
      · rw [Text.bare_trimmed_iff, not_not] at hpattern
        refine ⟨subject, ⟨hmatch, hpattern⟩, ?_⟩
        rw [(Text.trimmed_eq_empty_iff _).mpr hpattern, String.append_empty]
      · exact absurd ((Text.bare_trimmed_iff piece).mpr hsome) hpattern
    · rintro ⟨subject, ⟨hmatch, hblank⟩, rfl⟩
      have hregex : ("Regex", "") ∈ s.rulesFor subject :=
        mem_rulesFor_iff.mpr (Or.inl ⟨hmatch, by rw [(Text.trimmed_eq_empty_iff _).mpr hblank]⟩)
      have hnone : ¬ HasPattern (subject.field ++ " " ++ "") := by
        rw [hasPattern_append_iff]
        exact fun hbare => hbare.nonempty rfl
      rw [String.append_empty] at hnone
      refine ⟨?_, hnone⟩
      rw [← String.append_empty (s := subject.field ++ " ")]
      exact append_mem_selectionRules_iff.mpr hregex
  directives g hg text := by
    rw [group_mem_fieldDirectives_iff hg]
    constructor
    · rintro ⟨⟨key, value, hpiece, hkey, rfl⟩, hnone⟩
      have hblank : key.toList.all Text.isBlank = true := by
        by_contra hsome
        exact hnone ⟨key, value, hpiece, hkey, rfl, (Text.bare_trimmed_iff key).mpr hsome⟩
      refine ⟨key, value, hpiece, hblank, ?_⟩
      rw [(Text.trimmed_eq_empty_iff key).mpr hblank, String.empty_append]
    · rintro ⟨key, value, hpiece, hblank, rfl⟩
      refine ⟨⟨key, value, hpiece, Text.colon_not_mem_of_blank hblank, ?_⟩, ?_⟩
      · rw [(Text.trimmed_eq_empty_iff key).mpr hblank, String.empty_append]
      · rintro ⟨key', value', -, -, heq, hbare⟩
        rw [String.append_assoc] at heq
        exact hbare.append_ne _ _ heq.symm

end Settings

/-- **Rules have their operands where something is given.** A compiled document is usable exactly
when no pattern is given as blanks and every directive has something in front of its colon. What is
not usable comes of these settings alone, and lists of blanks give nothing in any case. -/
theorem usable_compiled_iff {s : Settings} {c : Compiled} (h : s.compile = .ok c) :
    (Usable s c ↔ s.GivesOperands) ∧ UnusableParts s c ∧ BlankLists s c := by
  obtain ⟨-, rfl⟩ := Settings.compile_eq_ok_iff.mp h
  have hparts := s.unusableParts_documents
  refine ⟨⟨?_, ?_⟩, hparts, s.blankLists_documents⟩
  · intro husable
    refine ⟨?_, ?_⟩
    · intro subject hblank
      obtain ⟨hrule, hnone⟩ := (hparts.rules _).mpr ⟨subject, hblank, rfl⟩
      exact hnone (husable.rules _ hrule)
    · intro g hg piece hpiece hkeyless
      obtain ⟨key, value, hkey, rfl⟩ := FieldDirective.exists_append_of_mem hkeyless.1
      rw [Text.keyless_append_iff hkey] at hkeyless
      obtain ⟨htext, hnone⟩ := (hparts.directives g hg _).mpr ⟨key, value, hpiece, hkeyless, rfl⟩
      exact hnone (husable.directives g hg _ htext)
  · intro hgives
    refine ⟨?_, ?_, ?_, s.blankLists_documents⟩
    · intro rule hrule
      by_contra hnone
      obtain ⟨subject, hblank, -⟩ := (hparts.rules rule).mp ⟨hrule, hnone⟩
      exact hgives.patterns subject hblank
    · intro g hg text htext
      by_contra hnone
      obtain ⟨key, value, hpiece, hblank, -⟩ := (hparts.directives g hg text).mp ⟨htext, hnone⟩
      have hkey := Text.colon_not_mem_of_blank hblank
      exact hgives.keys g hg _ hpiece ((Text.keyless_append_iff hkey value).mpr hblank)
    · intro subject hblank operand hrule
      rcases Settings.mem_rulesFor_iff.mp (Settings.append_mem_selectionRules_iff.mp hrule) with
        ⟨hmatch, -⟩ | ⟨-, piece, -, -, heq⟩
      · exact hgives.patterns subject ⟨hmatch, hblank⟩
      · exact absurd (Prod.mk.inj heq).1 (by decide)

/-- A pattern with blanks around it, exclusions with a blank piece, a list of blanks, a directive
with blanks around its key and value, and a piece without a colon. -/
def looseRules : Settings :=
  .ofSource (.ofList [("INCLUDE_LINE", " ERROR "), ("SKIP_IMAGE_NAMES", "redis, ,db "),
    ("SKIP_CONTAINER_NAMES", " , "), ("ADDITIONAL_FIELDS", " team : core ,oops")])

theorem usable_looseRules :
    looseRules.compile = .ok looseRules.documents ∧ looseRules.GivesOperands ∧
      Usable looseRules looseRules.documents := by
  have hvalid : looseRules.compile = .ok looseRules.documents :=
    Settings.compile_of_valid (by decide)
  have hgives : looseRules.GivesOperands := by
    refine ⟨?_, by decide⟩
    intro subject
    cases subject <;> decide
  exact ⟨hvalid, hgives, (usable_compiled_iff hvalid).1.mpr hgives⟩

/-- A pattern that is a blank. -/
def blankLine : Settings :=
  .ofSource (.ofList [("INCLUDE_LINE", " ")])

/-- The blank is accepted, and gives a rule with no pattern in it. -/
theorem not_usable_blankLine :
    blankLine.compile = .ok blankLine.documents ∧
      ("Regex", "message ") ∈ blankLine.documents.selectionRules ∧
      ¬ Usable blankLine blankLine.documents := by
  have hblank : blankLine.BlankPattern .logLine := by decide
  obtain ⟨hrule, hnone⟩ :=
    (blankLine.unusableParts_documents.rules ("Regex", "message ")).mpr ⟨.logLine, hblank, rfl⟩
  refine ⟨Settings.compile_of_valid (by decide), hrule, ?_⟩
  intro husable
  exact hnone (husable.rules _ hrule)

end LogShipper
