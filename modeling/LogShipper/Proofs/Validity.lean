import LogShipper.Document.Compiled

/-!
# Valid snapshots

The rules look settings up by name, while documents are made from the settings themselves. Both
views agree: a rule is broken exactly when both settings of its subject are given, a snapshot is
valid when that is so for no subject, and it is compiled exactly when it is valid.
-/

namespace LogShipper

/-- The rule for the two settings of a subject. -/
def Subject.rule : Subject → ExclusiveRule
  | .containerName => .containerName
  | .imageName => .imageName
  | .logLine => .lineFilter

namespace Settings

/-- Both settings of a subject are given. -/
def Clashes (s : Settings) (subject : Subject) : Prop :=
  s.value subject.matchSetting ≠ "" ∧ s.value subject.skipSetting ≠ ""

theorem isGiven_name (s : Settings) (k : Setting) :
    ExclusiveRule.isGiven s k.name = true ↔ s.value k ≠ "" := by
  rw [ExclusiveRule.isGiven, valueOf?_name]
  exact decide_eq_true_iff

theorem violation?_rule (s : Settings) (subject : Subject) :
    subject.rule.violation? s = none ↔ ¬ s.Clashes subject := by
  have hfirst := s.isGiven_name subject.matchSetting
  have hsecond := s.isGiven_name subject.skipSetting
  have hnames : subject.rule.first = subject.matchSetting.name ∧
      subject.rule.second = subject.skipSetting.name := by
    cases subject <;> exact ⟨rfl, rfl⟩
  rw [ExclusiveRule.violation?, hnames.1, hnames.2, Clashes, ← hfirst, ← hsecond]
  simp

theorem violations_eq_nil_iff (s : Settings) :
    s.violations = [] ↔ ∀ subject, ¬ s.Clashes subject := by
  have hall : ExclusiveRule.all = [Subject.containerName, .imageName, .logLine].map Subject.rule :=
    rfl
  rw [violations, List.filterMap_eq_nil_iff, hall]
  simp only [List.forall_mem_map, violation?_rule]
  constructor
  · intro h subject
    exact h subject (by cases subject <;> decide)
  · intro h subject _
    exact h subject

theorem violations_ne_nil_iff (s : Settings) :
    s.violations ≠ [] ↔ ∃ subject, s.Clashes subject := by
  rw [ne_eq, s.violations_eq_nil_iff, Classical.not_forall_not]

theorem validate_of_valid {s : Settings} (h : s.violations = []) : s.validate = .ok () := by
  rw [validate, h]
  rfl

theorem validate_of_broken {s : Settings} (h : s.violations ≠ []) :
    s.validate = .error ⟨s.violations⟩ := by
  rw [validate, if_neg (by simpa using h)]

theorem compile_of_valid {s : Settings} (h : s.violations = []) : s.compile = .ok s.documents := by
  unfold compile validate
  rw [h]
  rfl

theorem compile_of_broken {s : Settings} (h : s.violations ≠ []) :
    s.compile = .error ⟨s.violations⟩ := by
  unfold compile validate
  rw [if_neg (by simpa using h)]
  rfl

/-- A snapshot is compiled exactly when it breaks no rule, and to its documents. -/
theorem compile_eq_ok_iff {s : Settings} {c : Compiled} :
    s.compile = .ok c ↔ s.violations = [] ∧ s.documents = c := by
  by_cases hv : s.violations = []
  · rw [compile_of_valid hv, Except.ok.injEq, and_iff_right hv]
  · rw [compile_of_broken hv]
    constructor
    · intro h
      cases h
    · intro h
      exact absurd h.1 hv

theorem violations_ne_nil_of_compile {s : Settings} {c : Conflict} (h : s.compile = .error c) :
    s.violations ≠ [] := by
  intro hvalid
  rw [compile_of_valid hvalid] at h
  cases h

end Settings

end LogShipper
