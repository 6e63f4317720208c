import LogShipper.Proofs.Validity
import LogShipper.Run.Generate

/-!
# Runs on any host

A host may have any state, and may answer by all that it was asked before. Here the parts of a run
are opened, each of them once, and what is left is what a run hands from part to part: the state of
the host. All that is said of runs on particular hosts is drawn from these equations, and so are the
four ways in which a run ends on any of them.
-/

namespace LogShipper

/-! ## One part after the other -/

section

variable {ε δ σ α β : Type}

/-- What a part of a run comes to from a state of its host. -/
def runFrom (x : ExceptT ε (StateM σ) α) (s : σ) : Except ε α × σ :=
  (x.run.run s).run

/-- The second part is run where the first came to, unless that failed. -/
theorem runFrom_bind (x : ExceptT ε (StateM σ) α) (f : α → ExceptT ε (StateM σ) β) (s : σ) :
    runFrom (x >>= f) s =
      match runFrom x s with
      | (.ok a, s) => runFrom (f a) s
      | (.error e, s) => (.error e, s) := by
  unfold runFrom
  rw [ExceptT.run_bind, StateT.run_bind]
  show _ = match (x.run.run s : Except ε α × σ) with
    | (.ok a, s) => _
    | (.error e, s) => _
  rcases (x.run.run s : Except ε α × σ) with ⟨_ | _, _⟩ <;> rfl

theorem runFrom_adapt (f : ε → δ) (x : ExceptT ε (StateM σ) α) (s : σ) :
    runFrom (x.adapt f) s = ((runFrom x s).1.mapError f, (runFrom x s).2) :=
  rfl

theorem runFrom_lift (x : StateM σ α) (s : σ) :
    runFrom (liftM x : ExceptT ε (StateM σ) α) s = (.ok (x.run s).run.1, (x.run s).run.2) :=
  rfl

end

/-! ## The parts of a run -/

/-- Writes that a host was asked for, in order: paths and texts. -/
abbrev WriteLog := List (String × String)

/-- The report of a run that wrote these documents. -/
def Settings.reportOf (s : Settings) (c : Compiled) (time : Calendar.Instant) (writes : WriteLog) :
    Report :=
  { programVersion, generatedAt := time, settingsHash := s.fingerprint
    written := writes.map fun w =>
      { path := w.1, bytes := w.2.utf8ByteSize, sha256 := Digest.sha256Text w.2 }
    skipped := c.skipped }

namespace Host

variable {σ : Type} (host : Host (StateM σ))

/-- The state when note was taken of an event. -/
def noted (e : Event) (st : σ) : σ :=
  ((host.note e).run st).run.2

/-- The state when a snapshot was compiled, or was found to break a rule. -/
def compiled (s : Settings) (st : σ) : σ :=
  let counted := (host.countValidation.run st).run.2
  if s.violations = [] then s.compileEvents.foldl (fun st e => host.noted e st) counted else counted

/-- Why documents were not all written, and the state then. -/
def wrote : WriteLog → σ → Option WriteFault × σ
  | [], st => (none, st)
  | d :: ds, st =>
    match ((host.write d.1 d.2).run st).run with
    | (.ok _, st) => wrote ds (host.noted (.fileCreated d.1 d.2.utf8ByteSize) st)
    | (.error cause, st) => (some { path := d.1, cause }, st)

variable (st : σ)

/-- To validate asks nothing of a host but to count it. -/
theorem runFrom_validate (s : Settings) :
    runFrom (host.validate s) st = (s.validate, (host.countValidation.run st).run.2) := by
  unfold validate
  rw [runFrom_bind, runFrom_lift]
  cases s.validate <;> rfl

theorem runFrom_notes {ε : Type} (events : List Event) :
    runFrom (events.forM fun e => (host.note e : ExceptT ε (StateM σ) PUnit)) st =
      (.ok (), events.foldl (fun st e => host.noted e st) st) := by
  induction events generalizing st with
  | nil => rfl
  | cons e es ih =>
      show runFrom (_ >>= fun _ => _) st = _
      rw [runFrom_bind, runFrom_lift]
      exact ih _

/-- A snapshot is compiled on a host as it is without one. -/
theorem runFrom_compile (s : Settings) :
    runFrom (host.compile s) st = (s.compile, host.compiled s st) := by
  unfold compile compiled
  rw [runFrom_bind, runFrom_validate]
  by_cases h : s.violations = []
  · rw [Settings.validate_of_valid h, Settings.compile_of_valid h, if_pos h]
    show runFrom (s.compileEvents.forM _ >>= fun _ => _) _ = _
    rw [runFrom_bind, runFrom_notes]
    rfl
  · rw [Settings.validate_of_broken h, Settings.compile_of_broken h, if_neg h]

theorem runFrom_requirePlugin (path : String) :
    runFrom (host.requirePlugin path) st =
      match ((host.probe path).run st).run with
      | (.ok _, st) => (.ok (), host.noted (.pluginFound path) st)
      | (.error cause, st) => (.error { path, cause }, st) := by
  unfold requirePlugin
  rw [runFrom_bind, runFrom_lift]
  rcases ((host.probe path).run st).run with ⟨_ | _, _⟩ <;> rfl

theorem runFrom_writeDocument (path text : String) :
    runFrom (host.writeDocument path text) st =
      match ((host.write path text).run st).run with
      | (.ok _, st) =>
        (.ok (.ofText path text), host.noted (.fileCreated path text.utf8ByteSize) st)
      | (.error cause, st) => (.error { path, cause }, st) := by
  unfold writeDocument
  rw [runFrom_bind, runFrom_lift]
  rcases ((host.write path text).run st).run with ⟨_ | _, _⟩ <;> rfl

/-- Documents are written and recorded in their order up to the first fault. -/
theorem runFrom_writeAll (docs : WriteLog) :
    runFrom (host.writeAll docs) st =
      match host.wrote docs st with
      | (none, st) => (.ok (docs.map fun d => .ofText d.1 d.2), st)
      | (some fault, st) => (.error fault, st) := by
  unfold writeAll
  induction docs generalizing st with
  | nil => rfl
  | cons d ds ih =>
      rw [List.mapM_cons, runFrom_bind, runFrom_writeDocument, wrote]
      rcases ((host.write d.1 d.2).run st).run with ⟨cause | _, st'⟩
      · rfl
      · dsimp only
        rw [runFrom_bind, ih]
        rcases host.wrote ds (host.noted (.fileCreated d.1 d.2.utf8ByteSize) st') with
          ⟨_ | fault, _⟩ <;> rfl

/-- What a run comes to when its documents are written, with the time that is read last. -/
def reported (s : Settings) (c : Compiled) (docs : WriteLog) : Except RunFault Report × σ :=
  let (time, st) := (host.now.run (host.noted (.generated docs.length) st)).run
  (.ok (s.reportOf c time docs), st)

theorem runFrom_produce (s : Settings) (targets : Targets) :
    runFrom (host.produce s targets) st =
      match s.compile with
      | .error c => (.error (.conflict c), host.compiled s st)
      | .ok c =>
        match host.wrote (c.placed targets) (host.compiled s st) with
        | (none, st) => host.reported st s c (c.placed targets)
        | (some fault, st) => (.error (.notWritten fault), st) := by
  unfold produce
  rw [runFrom_bind, runFrom_adapt, runFrom_compile]
  cases s.compile with
  | error c => rfl
  | ok c =>
      show runFrom (_ >>= fun _ => _) _ = _
      rw [runFrom_bind, runFrom_adapt, runFrom_writeAll]
      dsimp only
      rcases host.wrote (c.placed targets) (host.compiled s st) with ⟨_ | fault, st'⟩
      · dsimp only [Except.mapError]
        rw [List.length_map]
        rfl
      · rfl

/-- A run goes on when it has found its plugin, and otherwise stops there. -/
theorem runFrom_generate (s : Settings) (targets : Targets) :
    runFrom (host.generate s targets) st =
      match runFrom (host.lookForPlugin targets) st with
      | (.ok _, st) => runFrom (host.produce s targets) st
      | (.error fault, st) => (.error (.pluginMissing fault), st) := by
  unfold generate
  rw [runFrom_bind, runFrom_adapt]
  rcases runFrom (host.lookForPlugin targets) st with ⟨_ | _, _⟩ <;> rfl

theorem runFrom_lookForPlugin (targets : Targets) :
    runFrom (host.lookForPlugin targets) st =
      match targets.plugin? with
      | none => (.ok (), st)
      | some path => runFrom (host.requirePlugin path) st := by
  unfold lookForPlugin
  cases targets.plugin? <;> rfl

end Host

/-! ## The ways to end -/

/-- The ways in which a run for settings and targets ends. -/
inductive Ending (s : Settings) (targets : Targets) : Except RunFault Report → Prop where
  | pluginMissing {path : String} (hplugin : targets.plugin? = some path) (cause : OsFault) :
      Ending s targets (.error (.pluginMissing { path, cause }))
  | conflict {c : Conflict} (hcompile : s.compile = .error c) :
      Ending s targets (.error (.conflict c))
  | notWritten {c : Compiled} (hcompile : s.compile = .ok c) {d : String × String}
      (hd : d ∈ c.placed targets) (cause : OsFault) :
      Ending s targets (.error (.notWritten { path := d.1, cause }))
  | done {c : Compiled} (hcompile : s.compile = .ok c) (time : Calendar.Instant) :
      Ending s targets (.ok (s.reportOf c time (c.placed targets)))

section

variable {σ : Type} (host : Host (StateM σ)) (s : Settings) (targets : Targets) (st : σ)

/-- What a host answers for one document leaves it in a state of its choice for those behind it, but
the fault is about one of the documents. -/
theorem Host.exists_of_wrote {docs : WriteLog} {fault : WriteFault} {st st' : σ}
    (h : host.wrote docs st = (some fault, st')) :
    ∃ d ∈ docs, ∃ cause, fault = { path := d.1, cause } := by
  induction docs generalizing st with
  | nil => cases h
  | cons d ds ih =>
      rw [wrote] at h
      rcases hwrite : ((host.write d.1 d.2).run st).run with ⟨cause | _, next⟩
      · rw [hwrite] at h
        obtain ⟨hfault, -⟩ := Prod.mk.inj h
        exact ⟨d, List.mem_cons_self, cause, (Option.some.inj hfault).symm⟩
      · rw [hwrite] at h
        obtain ⟨d', hd', hcause⟩ := ih h
        exact ⟨d', List.mem_cons_of_mem _ hd', hcause⟩

theorem ending_produce : Ending s targets (runFrom (host.produce s targets) st).1 := by
  rw [host.runFrom_produce]
  cases hcompile : s.compile with
  | error c => exact .conflict hcompile
  | ok c =>
      dsimp only
      rcases hwrote : host.wrote (c.placed targets) (host.compiled s st) with ⟨_ | fault, st'⟩
      · exact .done hcompile _
      · obtain ⟨d, hd, cause, rfl⟩ := host.exists_of_wrote hwrote
        exact .notWritten hcompile hd cause

/-- **A run ends in one of four ways on any host.** Which of them leaves no choice of the conflict,
and none of what is reported but the time. -/
theorem ending_generate : Ending s targets (runFrom (host.generate s targets) st).1 := by
  rw [host.runFrom_generate, host.runFrom_lookForPlugin]
  cases hplugin : targets.plugin? with
  | none => exact ending_produce host s targets st
  | some path =>
      dsimp only
      rw [host.runFrom_requirePlugin]
      rcases ((host.probe path).run st).run with ⟨cause | _, st'⟩
      · exact .pluginMissing hplugin cause
      · exact ending_produce host s targets _

end

end LogShipper
