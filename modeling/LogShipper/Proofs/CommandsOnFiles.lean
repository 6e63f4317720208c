import LogShipper.Proofs.Layers
import LogShipper.Proofs.StoredRuns
import LogShipper.Proofs.Validity

/-!
# Commands on files

What the program prints, the status it ends with and the files it leaves behind do not depend on
what it logs, or how. They are a function of the arguments, the environment, the files and the time,
which is written down here without any log.
-/

namespace LogShipper

namespace CommandLine

/-! ## The program without a log -/

/-- What is told about a run. -/
def outcomeOfRun : Except RunFault Report → Outcome
  | .ok report =>
    let result := Json.object [("report", JsonForm.toJson report), ("success", .bool true)]
    { status := .success, output := printed result.sorted }
  | .error fault =>
    let result := Json.object [("error", .string fault.message), ("success", .bool false)]
    { status := statusOf fault, output := printed result.sorted }

/-- What is shown of compiled documents. -/
def outcomeOfDocuments (joining : Bool) : Except Conflict Compiled → Outcome
  | .ok c => { status := .success, output := if joining then c.joining?.getD "" else c.main }
  | .error _ => { status := .conflict, output := "" }

/-- What is told about a verdict. -/
def outcomeOfVerdict (v : Verdict) : Outcome :=
  { status := if v.valid then .success else .conflict, output := printed (JsonForm.toJson v) }

/-- What a command comes to for a snapshot, and what it leaves behind. -/
def Command.onFiles (s : Settings) (at' : Disk × Calendar.Instant) :
    Command → Outcome × (Disk × Calendar.Instant)
  | .generate targets => (Store.onDisk.generate s targets at').map outcomeOfRun id
  | .render joining => (outcomeOfDocuments joining s.compile, at')
  | .validate => (outcomeOfVerdict s.check, at')

/-- What the program comes to, and what it leaves behind. -/
def onFiles (environment : Source) (args : List String) (at' : Disk × Calendar.Instant) :
    Outcome × (Disk × Calendar.Instant) :=
  match read args with
  | .help => ({ status := .success, output := "" }, at')
  | .misuse => ({ status := .misuse, output := "" }, at')
  | .invocation i =>
    match Settings.loadFrom at'.1 i.settingsFile? environment with
    | .ok s => i.command.onFiles s at'
    | .error _ => ({ status := .failure, output := "" }, at')

theorem acts_perform {σ : Type} {host : Host (StateM σ)} {view : σ → Disk × Calendar.Instant}
    (hfollows : host.Follows Store.onDisk.host view) (s : Settings) (command : Command) :
    Acts view (System.perform host s command) fun at' => command.onFiles s at' := by
  cases command with
  | generate targets =>
      refine (hfollows.acts_generate_store s targets).bind
        (k := fun run at' => (outcomeOfRun run, at')) fun run => ?_
      cases run with
      | ok report => exact .pure _
      | error fault => exact (hfollows.note _).bind fun _ => .pure _
  | render joining =>
      refine (hfollows.acts_compile_store s).bind
        (k := fun compiled at' => (outcomeOfDocuments joining compiled, at')) fun compiled => ?_
      -- Whether there is a document to print decides what is logged, and nothing else.
      rcases compiled with c | ⟨sections, main, joining?, skipped⟩
      · exact (hfollows.note _).bind fun _ => .pure _
      · cases joining with
        | false => exact .pure _
        | true =>
          cases joining? with
          | some text => exact .pure _
          | none => exact (hfollows.note _).bind fun _ => .pure _
  | validate => exact .pure _

/-- Settings are loaded from the files of a machine, which are as they were then. -/
theorem acts_load (file? : Option String) (environment : Source) :
    Acts Machine.files (Settings.load Machine.system.readFile file? environment)
      fun at' => (Settings.loadFrom at'.1 file? environment, at') := by
  cases file? with
  | none => exact .pure _
  | some path =>
      have hread : Acts Machine.files (Machine.system.readFile path) fun at' =>
          (at'.1.read (.ofString path), at') :=
        fun _ => rfl
      unfold Settings.load
      refine (hread.bind (k := fun content at' =>
        ((Settings.ofFile path content).map fun s => s.overlay environment, at'))
        fun content => ?_).congr fun at' => ?_
      · cases Settings.ofFile path content <;> exact .pure _
      · rw [Settings.loadFrom_some]

/-- **What the program prints, how it ends and what files it leaves behind depends on no log.** -/
theorem run_onFiles (machine : Machine) (environment : Source) (args : List String) :
    ((machine.run environment args).1, (machine.run environment args).2.files) =
      onFiles environment args machine.files := by
  unfold Machine.run System.run onFiles
  cases read args with
  | help => rfl
  | misuse => rfl
  | invocation i =>
      have hinvoke : Acts Machine.files (Machine.system.invoke environment i) fun at' =>
          match Settings.loadFrom at'.1 i.settingsFile? environment with
          | .ok s => i.command.onFiles s at'
          | .error _ => ({ status := .failure, output := "" }, at') := by
        unfold System.invoke
        have hfollows := Machine.follows_onDisk (i.verbosity environment) i.logFormat
        refine (acts_load i.settingsFile? environment).bind
          (k := fun loaded at' => match loaded with
            | .ok s => i.command.onFiles s at'
            | .error _ => ({ status := .failure, output := "" }, at')) fun loaded => ?_
        cases loaded with
        | ok s => exact acts_perform hfollows s i.command
        | error fault => exact (hfollows.note _).bind fun _ => .pure _
      exact hinvoke machine

/-- An invocation does what its command does with the settings that are loaded. -/
theorem run_of_loaded {machine : Machine} {environment : Source} {args : List String}
    {i : Invocation} {s : Settings} (hread : read args = .invocation i)
    (hload : Settings.loadFrom machine.disk i.settingsFile? environment = .ok s) :
    (machine.run environment args).1 = (i.command.onFiles s machine.files).1 ∧
      (machine.run environment args).2.disk = (i.command.onFiles s machine.files).2.1 := by
  have hfiles : onFiles environment args machine.files = i.command.onFiles s machine.files := by
    rw [onFiles, hread]
    dsimp only
    rw [show machine.files.1 = machine.disk from rfl, hload]
  rw [← hfiles, ← run_onFiles]
  exact ⟨rfl, rfl⟩

/-! ## Conflicts -/

/-- No plugin is missing for the command. -/
def Command.PluginThere (d : Disk) : Command → Prop
  | .generate targets => Store.onDisk.Opens d targets
  | .render _ | .validate => True

theorem code_outcomeOfVerdict_eq_two_iff (s : Settings) :
    (outcomeOfVerdict s.check).status.code = 2 ↔ s.violations ≠ [] := by
  unfold outcomeOfVerdict Settings.check
  cases s.violations <;> simp [ExitStatus.code]

theorem code_outcomeOfDocuments_eq_two_iff (joining : Bool) (s : Settings) :
    (outcomeOfDocuments joining s.compile).status.code = 2 ↔ s.violations ≠ [] := by
  by_cases h : s.violations = []
  · simp [Settings.compile_of_valid h, h, outcomeOfDocuments, ExitStatus.code]
  · simp [Settings.compile_of_broken h, h, outcomeOfDocuments, ExitStatus.code]

/-- Documents are generated in one of the ways in which a run ends. -/
theorem Command.exists_course (s : Settings) (targets : Targets) (at' : Disk × Calendar.Instant) :
    ∃ run after, (generate targets).onFiles s at' = (outcomeOfRun run, after) ∧
      Store.onDisk.Course s targets at' (run, after) :=
  ⟨_, _, rfl, Store.onDisk.course_generate s targets at'⟩

/-- A command ends with 2 exactly when rules are broken and no plugin is missing for it. -/
theorem Command.code_eq_two_iff (s : Settings) (command : Command) (at' : Disk × Calendar.Instant) :
    (command.onFiles s at').1.status.code = 2 ↔ s.violations ≠ [] ∧ command.PluginThere at'.1 := by
  cases command with
  | validate => exact (code_outcomeOfVerdict_eq_two_iff s).trans (and_iff_left trivial).symm
  | render joining =>
      exact (code_outcomeOfDocuments_eq_two_iff joining s).trans (and_iff_left trivial).symm
  | generate targets =>
      obtain ⟨run, after, hfiles, hcourse⟩ := exists_course s targets at'
      rw [hfiles]
      cases hcourse with
      | pluginMissing hplugin hopens =>
          have hmissing : ¬ (generate targets).PluginThere at'.1 := fun hopen =>
            nomatch hopens.symm.trans (hopen _ hplugin)
          exact iff_of_false nofun fun h => hmissing h.2
      | conflict hplugin hcompile =>
          exact iff_of_true rfl ⟨Settings.violations_ne_nil_of_compile hcompile, hplugin⟩
      | notWritten _ hcompile _ =>
          exact iff_of_false nofun fun h => h.1 (Settings.compile_eq_ok_iff.mp hcompile).1
      | done _ hcompile _ =>
          exact iff_of_false nofun fun h => h.1 (Settings.compile_eq_ok_iff.mp hcompile).1

/-- Documents are generated with success only for a valid snapshot, and are all written then. -/
theorem Command.writeAll_of_code_eq_zero {s : Settings} {targets : Targets}
    {at' : Disk × Calendar.Instant}
    (h : ((generate targets).onFiles s at').1.status.code = 0) :
    s.violations = [] ∧ Store.onDisk.writeAll at'.1 (s.documents.placed targets) =
      (((generate targets).onFiles s at').2.1, none) := by
  obtain ⟨run, after, hfiles, hcourse⟩ := exists_course s targets at'
  rw [hfiles] at h ⊢
  cases hcourse with
  | pluginMissing => cases h
  | conflict => cases h
  | notWritten => cases h
  | done _ hcompile hwrites =>
      obtain ⟨hvalid, rfl⟩ := Settings.compile_eq_ok_iff.mp hcompile
      exact ⟨hvalid, hwrites⟩

end CommandLine

end LogShipper
