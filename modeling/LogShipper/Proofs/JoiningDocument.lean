import LogShipper.Proofs.Layout
import LogShipper.Proofs.Validity
import LogShipper.Proofs.Written

/-!
# Reading a chain of rules back

Patterns stand between quotes as they are, so a pattern may hold what looks like its end, a gap and
a next state. A line is still of one rule only: the rules of a chain have three forms, the lines of
each form end in their own way, and no such ending is the end of another. So the document that
defines the parser determines the chain, however its patterns are quoted.
-/

namespace LogShipper

/-- The forms of the rules in a chain: a start without continuations, a start with some, and a
continuation. -/
inductive RuleForm where
  | alone
  | first
  | next
deriving DecidableEq, Repr

namespace RuleForm

def all : List RuleForm :=
  [.alone, .first, .next]

theorem mem_all (f : RuleForm) : f ∈ all := by
  cases f <;> decide

open JoiningRule in
/-- The rule of a form for a pattern. -/
def rule : RuleForm → String → JoiningRule
  | .alone, pattern => start pattern none
  | .first, pattern => start pattern (some continuationState)
  | .next, pattern => continuation pattern

/-- What stands before the pattern in a line of the form. -/
def lead : RuleForm → String
  | .alone | .first => "rule      \"start_state\"   \"/"
  | .next => "rule      \"cont\"          \""

/-- What stands behind the pattern in a line of the form. -/
def tail : RuleForm → String
  | .alone => "/\""
  | .first => "/\"  \"cont\""
  | .next => "\"                     \"cont\""

open JoiningRule in
theorem render_rule (f : RuleForm) (pattern : String) :
    (f.rule pattern).render = f.lead ++ pattern ++ f.tail := by
  have hstart : "rule      " ++ Line.padRight 15 (between startState) ++ " " ++ "\"" ++ "/" =
      "rule      \"start_state\"   \"/" := by decide
  have hnext : "rule      " ++ Line.padRight 15 (between continuationState) ++ " " ++ "\"" =
      "rule      \"cont\"          \"" := by decide
  cases f with
  | alone =>
      have htail : "/" ++ "\"" = tail .alone := rfl
      show "rule      " ++ Line.padRight 15 (between startState) ++ " " ++
        between ("/" ++ pattern ++ "/") = _
      rw [lead, ← hstart, ← htail]
      simp only [between, String.append_assoc]
  | first =>
      have htail : "/" ++ ("\"" ++ (Line.padRight 2 "" ++ between continuationState)) =
          tail .first := by decide
      show "rule      " ++ Line.padRight 15 (between startState) ++ " " ++
        between ("/" ++ pattern ++ "/") ++ Line.padRight 2 "" ++ between continuationState = _
      rw [lead, ← hstart, ← htail]
      simp only [between, String.append_assoc]
  | next =>
      have htail : "\"" ++ (Line.padRight 21 "" ++ between continuationState) = tail .next := by
        decide
      show "rule      " ++ Line.padRight 15 (between continuationState) ++ " " ++
        between pattern ++ Line.padRight 21 "" ++ between continuationState = _
      rw [lead, ← hnext, ← htail]
      simp only [between, String.append_assoc]

/-- How a line ends says which form it has. -/
theorem tail_suffix_free : ∀ f ∈ all, ∀ g ∈ all, f.tail.toList <:+ g.tail.toList → f = g := by
  decide +kernel

theorem newline_not_mem_ends (f : RuleForm) : '\n' ∉ f.lead.toList ∧ '\n' ∉ f.tail.toList := by
  cases f <;> decide

/-- **A line is of one rule.** Whatever quotes and gaps the patterns hold, lines of different forms
or with different patterns differ. -/
theorem render_rule_eq_iff {f g : RuleForm} {p q : String} :
    (f.rule p).render = (g.rule q).render ↔ f = g ∧ p = q := by
  rw [render_rule, render_rule]
  constructor
  · intro h
    have hf : f.tail.toList <:+ (g.lead ++ q ++ g.tail).toList := by
      rw [← h, String.toList_append]
      exact List.suffix_append _ _
    have hg : g.tail.toList <:+ (g.lead ++ q ++ g.tail).toList := by
      rw [String.toList_append]
      exact List.suffix_append _ _
    -- Of two ends of one line the shorter is an end of the other.
    have hform : f = g := by
      rcases List.suffix_or_suffix_of_suffix hf hg with hfg | hgf
      · exact tail_suffix_free f (mem_all f) g (mem_all g) hfg
      · exact (tail_suffix_free g (mem_all g) f (mem_all f) hgf).symm
    subst hform
    rw [String.append_left_inj, String.append_right_inj] at h
    exact ⟨rfl, h⟩
  · rintro ⟨rfl, rfl⟩
    rfl

/-- Rules that no chain has may share a line: here the slashes are missing. -/
example :
    JoiningRule.render { state := "start_state", pattern := "a\"  \"cont", next? := none } =
      JoiningRule.render { state := "start_state", pattern := "a", next? := some "cont" } := by
  decide

end RuleForm

/-! ## Chains -/

namespace JoiningRule

theorem chain_eq {startPattern : String} (h : startPattern ≠ "") (continuations : String) :
    chain startPattern continuations =
      start startPattern
          (if Text.splitEntries ';' continuations = [] then none else some continuationState) ::
        (Text.splitEntries ';' continuations).map continuation := by
  unfold chain
  rw [if_neg h]
  cases Text.splitEntries ';' continuations with
  | nil => rfl
  | cons p ps => rw [if_neg (List.cons_ne_nil _ _)]

theorem chain_eq_nil_iff {startPattern continuations : String} :
    chain startPattern continuations = [] ↔ startPattern = "" := by
  by_cases h : startPattern = ""
  · rw [chain, if_pos h, eq_true h, eq_self_iff_true]
  · rw [chain_eq h]
    exact iff_of_false (List.cons_ne_nil _ _) h

theorem start_pattern_injective {p q : String} {m n : Option String}
    (h : start p m = start q n) : p = q := by
  have hpattern : "/" ++ p ++ "/" = "/" ++ q ++ "/" := congrArg pattern h
  rw [String.append_left_inj, String.append_right_inj] at hpattern
  exact hpattern

/-- A chain is known by the start pattern and by the continuations behind it. -/
theorem chain_eq_iff {a b x y : String} :
    chain a x = chain b y ↔
      a = b ∧ (a ≠ "" → Text.splitEntries ';' x = Text.splitEntries ';' y) := by
  constructor
  · intro h
    by_cases ha : a = ""
    · have hb : b = "" := chain_eq_nil_iff.mp (h ▸ chain_eq_nil_iff.mpr ha)
      exact ⟨ha.trans hb.symm, fun hne => absurd ha hne⟩
    · have hb : b ≠ "" := fun hb => ha (chain_eq_nil_iff.mp (h.trans (chain_eq_nil_iff.mpr hb)))
      rw [chain_eq ha, chain_eq hb, List.cons.injEq] at h
      have hcontinuation : Function.Injective continuation := fun p q hpq => congrArg pattern hpq
      exact ⟨start_pattern_injective h.1, fun _ => List.map_injective_iff.mpr hcontinuation h.2⟩
  · rintro ⟨rfl, h⟩
    by_cases ha : a = ""
    · rw [chain_eq_nil_iff.mpr ha, chain_eq_nil_iff.mpr ha]
    · rw [chain_eq ha, chain_eq ha, h ha]

/-- The rule has a form. -/
def HasForm (r : JoiningRule) : Prop :=
  ∃ (f : RuleForm) (p : String), r = f.rule p

/-- Every rule of a chain has a form, and a pattern from the settings. -/
theorem exists_form_of_mem_chain {startPattern continuations : String} {r : JoiningRule}
    (h : r ∈ chain startPattern continuations) :
    ∃ (f : RuleForm) (p : String), r = f.rule p ∧
      ∀ c ∈ p.toList, c ∈ startPattern.toList ∨ c ∈ continuations.toList := by
  by_cases hstart : startPattern = ""
  · rw [chain_eq_nil_iff.mpr hstart] at h
    exact absurd h List.not_mem_nil
  · rw [chain_eq hstart] at h
    rcases List.mem_cons.mp h with rfl | hrest
    · by_cases hnil : Text.splitEntries ';' continuations = []
      · rw [if_pos hnil]
        exact ⟨.alone, startPattern, rfl, fun _ => Or.inl⟩
      · rw [if_neg hnil]
        exact ⟨.first, startPattern, rfl, fun _ => Or.inl⟩
    · obtain ⟨p, hp, rfl⟩ := List.mem_map.mp hrest
      exact ⟨.next, p, rfl, fun _ hc => Or.inr (Text.mem_of_mem_splitEntries hp hc)⟩

theorem hasForm_of_mem_chain {startPattern continuations : String} :
    ∀ r ∈ chain startPattern continuations, r.HasForm := by
  intro r hr
  obtain ⟨f, p, rfl, -⟩ := exists_form_of_mem_chain hr
  exact ⟨f, p, rfl⟩

/-- Rules that have forms are known by their lines. -/
theorem eq_of_map_render_eq {a b : List JoiningRule} (ha : ∀ r ∈ a, r.HasForm)
    (hb : ∀ r ∈ b, r.HasForm) (h : a.map render = b.map render) : a = b := by
  induction a generalizing b with
  | nil => exact (List.map_eq_nil_iff.mp h.symm).symm
  | cons r a ih =>
      cases b with
      | nil => cases h
      | cons r' b =>
          rw [List.map_cons, List.map_cons, List.cons.injEq] at h
          rw [List.forall_mem_cons] at ha hb
          obtain ⟨f, p, rfl⟩ := ha.1
          obtain ⟨g, q, rfl⟩ := hb.1
          obtain ⟨rfl, rfl⟩ := RuleForm.render_rule_eq_iff.mp h.1
          rw [ih ha.2 hb.2 h.2]

/-! ## Documents -/

theorem textLines_parserSection (rules : List JoiningRule) :
    (parserSection rules).textLines =
      (parserSection []).textLines ++ rules.map fun r => Line.indent ++ r.render := by
  rw [parserSection_eq, parserSection_eq]
  simp [Section.textLines, Section.headerLine, Line.indented, Line.text, Function.comp_def]

/-- Rules without line feeds in their lines are written to a document that shows these lines. -/
theorem map_render_eq_of_render_eq {a b : List JoiningRule}
    (ha : ∀ r ∈ a, '\n' ∉ r.render.toList) (hb : ∀ r ∈ b, '\n' ∉ r.render.toList)
    (h : (parserSection a).render = (parserSection b).render) : a.map render = b.map render := by
  have hhead : ∀ l ∈ (parserSection []).textLines, '\n' ∉ l.toList := by decide +kernel
  -- Cut at line feeds, a document gives back the lines of its section, and nothing behind them.
  have hlines : ∀ rules : List JoiningRule, (∀ r ∈ rules, '\n' ∉ r.render.toList) →
      Text.lines (parserSection rules).render = (parserSection rules).textLines ++ [""] := by
    intro rules hrules
    rw [Section.render_eq_ofLines]
    apply Text.lines_ofLines_of_not_mem
    rw [textLines_parserSection, List.forall_mem_append, List.forall_mem_map]
    refine ⟨hhead, fun r hr => ?_⟩
    have hindent : '\n' ∉ Line.indent.toList := by decide
    rw [String.toList_append, List.mem_append, not_or]
    exact ⟨hindent, hrules r hr⟩
  have htext : (parserSection a).textLines ++ [""] = (parserSection b).textLines ++ [""] := by
    rw [← hlines a ha, ← hlines b hb, h]
  rw [List.append_cancel_right_eq, textLines_parserSection a, textLines_parserSection b,
    List.append_cancel_left_eq] at htext
  have hindent : Function.Injective (Line.indent ++ ·) := fun s t hst =>
    (String.append_right_inj _).mp hst
  apply List.map_injective_iff.mpr hindent
  rw [List.map_map, List.map_map]
  exact htext

end JoiningRule

namespace Settings

theorem joiningRules_eq_nil_iff (s : Settings) :
    s.joiningRules = [] ↔ s.value .joinStart = "" :=
  JoiningRule.chain_eq_nil_iff

/-- There is a document exactly when there are rules, and it is made of them. -/
theorem joining?_eq_ite (s : Settings) :
    s.documents.joining? =
      if s.joiningRules = [] then none
      else some (JoiningRule.parserSection s.joiningRules).render := by
  unfold documents joiningSection? joinsLines
  by_cases h : s.value .joinStart = ""
  · rw [if_pos (s.joiningRules_eq_nil_iff.mpr h), if_neg (by simpa using h)]
    rfl
  · rw [if_neg (mt s.joiningRules_eq_nil_iff.mp h), if_pos (by simpa using h)]
    rfl

theorem newline_not_mem_render {s : Settings} (hstart : '\n' ∉ (s.value .joinStart).toList)
    (hcontinuations : '\n' ∉ (s.value .joinContinuations).toList) :
    ∀ r ∈ s.joiningRules, '\n' ∉ r.render.toList := by
  intro r hr
  obtain ⟨f, p, rfl, hp⟩ := JoiningRule.exists_form_of_mem_chain hr
  obtain ⟨hlead, htail⟩ := f.newline_not_mem_ends
  rw [RuleForm.render_rule]
  simp only [String.toList_append, List.mem_append, not_or]
  refine ⟨⟨hlead, ?_⟩, htail⟩
  intro hc
  rcases hp _ hc with hc | hc
  · exact hstart hc
  · exact hcontinuations hc

end Settings

/-- **The document determines the chain.** Valid snapshots whose patterns hold no line feed have one
document about joined lines exactly when they have one chain of rules, and that is when they have
the same start pattern and, if there is one, the same continuations in the same order. -/
theorem joining?_eq_iff_joiningRules_eq {s t : Settings} {c d : Compiled}
    (hc : s.compile = .ok c) (hd : t.compile = .ok d)
    (hs : ∀ k ∈ [Setting.joinStart, .joinContinuations], '\n' ∉ (s.value k).toList)
    (ht : ∀ k ∈ [Setting.joinStart, .joinContinuations], '\n' ∉ (t.value k).toList) :
    (c.joining? = d.joining? ↔ s.joiningRules = t.joiningRules) ∧
      (c.joining? = d.joining? ↔
        s.value .joinStart = t.value .joinStart ∧
          (s.value .joinStart ≠ "" →
            Text.splitEntries ';' (s.value .joinContinuations) =
              Text.splitEntries ';' (t.value .joinContinuations))) := by
  obtain ⟨-, rfl⟩ := Settings.compile_eq_ok_iff.mp hc
  obtain ⟨-, rfl⟩ := Settings.compile_eq_ok_iff.mp hd
  have hrules : s.documents.joining? = t.documents.joining? ↔ s.joiningRules = t.joiningRules := by
    rw [s.joining?_eq_ite, t.joining?_eq_ite]
    constructor
    · intro h
      by_cases hsnil : s.joiningRules = [] <;> by_cases htnil : t.joiningRules = []
      · rw [hsnil, htnil]
      · rw [if_pos hsnil, if_neg htnil] at h
        cases h
      · rw [if_neg hsnil, if_pos htnil] at h
        cases h
      · rw [if_neg hsnil, if_neg htnil, Option.some.injEq] at h
        have hlines := JoiningRule.map_render_eq_of_render_eq
          (Settings.newline_not_mem_render (hs _ (by decide)) (hs _ (by decide)))
          (Settings.newline_not_mem_render (ht _ (by decide)) (ht _ (by decide))) h
        exact JoiningRule.eq_of_map_render_eq JoiningRule.hasForm_of_mem_chain
          JoiningRule.hasForm_of_mem_chain hlines
    · intro h
      rw [h]
  exact ⟨hrules, hrules.trans JoiningRule.chain_eq_iff⟩

/-- A start pattern that holds its own end, a gap and a next state. -/
def quotedStart : Settings :=
  .ofSource (.ofList [("MULTILINE_START_STATE_RULE", "^a/\"  \"cont")])

/-- The start pattern and the next state that it looks like. -/
def plainStart : Settings :=
  .ofSource (.ofList [("MULTILINE_START_STATE_RULE", "^a"), ("MULTILINE_CUSTOM_RULES", " b ; ")])

/-- What a pattern looks like does not matter. -/
theorem joining?_quotedStart_ne_plainStart :
    quotedStart.compile = .ok quotedStart.documents ∧
      plainStart.compile = .ok plainStart.documents ∧
      quotedStart.documents.joining? ≠ plainStart.documents.joining? := by
  have hquoted : quotedStart.compile = .ok quotedStart.documents :=
    Settings.compile_of_valid (by decide)
  have hplain : plainStart.compile = .ok plainStart.documents :=
    Settings.compile_of_valid (by decide)
  have hiff := joining?_eq_iff_joiningRules_eq hquoted hplain (by decide) (by decide)
  refine ⟨hquoted, hplain, ?_⟩
  intro h
  exact absurd (hiff.1.mp h) (by decide)

end LogShipper
