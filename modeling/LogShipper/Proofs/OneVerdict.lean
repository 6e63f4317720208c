import LogShipper.Proofs.AnyHost

/-!
# One verdict

A snapshot can be put to the rules in four ways: it is checked, validated, compiled, or a run is
made for it. All of them go by the same violations, and these are said here from the settings alone:
one for each subject whose two settings are both given, in the order of the subjects.
-/

namespace LogShipper

namespace Subject

def all : List Subject :=
  [.containerName, .imageName, .logLine]

/-- What is reported of a subject whose two settings are both given. -/
def clash : Subject → Violation
  | .containerName =>
    { rule := "container_name", settings := ("MATCH_CONTAINER_NAME", "SKIP_CONTAINER_NAMES")
      message := "Cannot use both MATCH_CONTAINER_NAME and SKIP_CONTAINER_NAMES" }
  | .imageName =>
    { rule := "image_name", settings := ("MATCH_IMAGE_NAME", "SKIP_IMAGE_NAMES")
      message := "Cannot use both MATCH_IMAGE_NAME and SKIP_IMAGE_NAMES" }
  | .logLine =>
    { rule := "line_filter", settings := ("INCLUDE_LINE", "EXCLUDE_LINES")
      message := "Cannot use both INCLUDE_LINE and EXCLUDE_LINES" }

end Subject

namespace Settings

instance (s : Settings) : DecidablePred s.Clashes :=
  fun _ => inferInstanceAs (Decidable (_ ∧ _))

/-- What there is to report of a snapshot, in the order of the subjects. -/
def clashes (s : Settings) : List Violation :=
  (Subject.all.filter fun subject => s.Clashes subject).map Subject.clash

/-! ## The violations -/

/-- The rule of a subject, which finds settings by name, reports a clash of the settings that the
documents are made from. -/
theorem violation?_rule_eq_ite (s : Settings) (subject : Subject) :
    subject.rule.violation? s = if s.Clashes subject then some subject.clash else none := by
  by_cases h : s.Clashes subject
  · have hgiven : (ExclusiveRule.isGiven s subject.rule.first &&
        ExclusiveRule.isGiven s subject.rule.second) = true := by
      rw [Bool.and_eq_true]
      cases subject <;> exact ⟨(s.isGiven_name _).mpr h.1, (s.isGiven_name _).mpr h.2⟩
    rw [if_pos h, ExclusiveRule.violation?, if_pos hgiven]
    cases subject <;> rfl
  · rw [if_neg h]
    exact (s.violation?_rule subject).mpr h

theorem violations_eq_clashes (s : Settings) : s.violations = s.clashes := by
  calc s.violations
      = (Subject.all.map Subject.rule).filterMap (·.violation? s) := rfl
    _ = Subject.all.filterMap fun subject =>
          if s.Clashes subject then some subject.clash else none := by
        rw [List.filterMap_map]
        exact congrArg (List.filterMap · _) (funext s.violation?_rule_eq_ite)
    _ = s.clashes := by
        rw [clashes, ← List.filterMap_eq_map, List.filterMap_filter]
        simp only [decide_eq_true_eq, Function.comp]

end Settings

/-- However a snapshot is put to the rules, it is these violations that decide, and that are
reported. -/
structure OneVerdict (s : Settings) (violations : List Violation) : Prop where
  check : s.check.violations = violations ∧ (s.check.valid = true ↔ violations = [])
  accepted : (s.validate = .ok () ↔ violations = []) ∧
    ((∃ c, s.compile = .ok c) ↔ violations = [])
  refused : violations ≠ [] → s.validate = .error ⟨violations⟩ ∧ s.compile = .error ⟨violations⟩
  message : (RunFault.conflict ⟨violations⟩).message =
    "Validation failed: " ++ "; ".intercalate (violations.map (·.message))
  /-- A host makes no difference to validation and compilation. -/
  hosted : ∀ {σ : Type} (host : Host (StateM σ)) (st : σ),
    (runFrom (host.validate s) st).1 = s.validate ∧ (runFrom (host.compile s) st).1 = s.compile
  /-- Runs that look for no plugin go by the same violations. -/
  run_conflict_iff : ∀ {σ : Type} (host : Host (StateM σ)) (targets : Targets) (st : σ),
    targets.plugin? = none →
      ((∃ c, (runFrom (host.generate s targets) st).1 = .error (.conflict c)) ↔ violations ≠ [])
  /-- Nothing is written on the way to a conflict: any host is left as it is by taking note of one
  validation. -/
  run_refused : ∀ {σ : Type} (host : Host (StateM σ)) (targets : Targets) (st : σ),
    targets.plugin? = none → violations ≠ [] →
      runFrom (host.generate s targets) st =
        (.error (.conflict ⟨violations⟩), (host.countValidation.run st).run.2)
  exclusive : (∃ c, s.compile = .ok c) →
    ∀ subject : Subject, s.value subject.matchSetting = "" ∨ s.value subject.skipSetting = ""

/-! ## Runs of snapshots in conflict -/

section

variable {σ : Type} (host : Host (StateM σ)) {s : Settings} {targets : Targets} (st : σ)

theorem runFrom_generate_of_broken (hplugin : targets.plugin? = none)
    (hbroken : s.violations ≠ []) :
    runFrom (host.generate s targets) st =
      (.error (.conflict ⟨s.violations⟩), (host.countValidation.run st).run.2) := by
  have hcompiled : host.compiled s st = (host.countValidation.run st).run.2 := by
    rw [Host.compiled, if_neg hbroken]
  rw [host.runFrom_generate, host.runFrom_lookForPlugin, hplugin]
  dsimp only
  rw [host.runFrom_produce, Settings.compile_of_broken hbroken, hcompiled]

/-- Only a snapshot that breaks a rule ends a run in a conflict. -/
theorem violations_ne_nil_of_conflict {c : Conflict}
    (h : (runFrom (host.generate s targets) st).1 = .error (.conflict c)) : s.violations ≠ [] := by
  have hending := ending_generate host s targets st
  rw [h] at hending
  cases hending with
  | conflict hcompile => exact Settings.violations_ne_nil_of_compile hcompile

end

theorem Settings.oneVerdict_violations (s : Settings) : OneVerdict s s.violations where
  check := ⟨rfl, List.isEmpty_iff⟩
  accepted := by
    constructor
    · by_cases h : s.violations = []
      · rw [validate_of_valid h]
        exact iff_of_true rfl h
      · rw [validate_of_broken h]
        exact iff_of_false nofun h
    · constructor
      · rintro ⟨c, hc⟩
        exact (compile_eq_ok_iff.mp hc).1
      · intro h
        exact ⟨s.documents, compile_of_valid h⟩
  refused h := ⟨validate_of_broken h, compile_of_broken h⟩
  message := rfl
  hosted host st := by
    rw [host.runFrom_validate, host.runFrom_compile]
    exact ⟨rfl, rfl⟩
  run_conflict_iff host targets st hplugin := by
    constructor
    · rintro ⟨c, hc⟩
      exact violations_ne_nil_of_conflict host st hc
    · intro h
      rw [runFrom_generate_of_broken host st hplugin h]
      exact ⟨_, rfl⟩
  run_refused host _ st hplugin h := runFrom_generate_of_broken host st hplugin h
  exclusive := by
    rintro ⟨c, hc⟩ subject
    have hclash := s.violations_eq_nil_iff.mp (compile_eq_ok_iff.mp hc).1 subject
    exact Decidable.or_iff_not_not_and_not.mpr hclash

/-- **There is one verdict on a snapshot.** However it is put to the rules, the clashes of its
settings decide, subject by subject. -/
theorem oneVerdict_clashes (s : Settings) : OneVerdict s s.clashes := by
  rw [← s.violations_eq_clashes]
  exact s.oneVerdict_violations

/-- A value of blanks is given, and a pair that is given by half does not clash. -/
example :
    (Settings.ofSource (.ofList [("MATCH_CONTAINER_NAME", "web"), ("SKIP_CONTAINER_NAMES", " "),
      ("SKIP_IMAGE_NAMES", "db"), ("INCLUDE_LINE", "a"), ("EXCLUDE_LINES", "b")])).clashes =
      [Subject.clash .containerName, Subject.clash .logLine] := by
  decide

end LogShipper
