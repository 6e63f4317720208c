import LogShipper.Proofs.CommandsOnFiles

/-!
# Exit statuses

A run of the program that fails ends with 1 or with 2. Settings that clash end it with 2 and
everything else that can go wrong with a command ends it with 1, but 2 says less than that: it is
also the status for arguments that ask for no command at all.
-/

namespace LogShipper.CommandLine

/-! ## Commands that fail otherwise -/

/-- Not all documents of the command can be written. -/
def Command.WriteFails (s : Settings) (d : Disk) : Command → Prop
  | .generate targets => Store.onDisk.Opens d targets ∧
    ∃ c after fault, s.compile = .ok c ∧
      Store.onDisk.writeAll d (c.placed targets) = (after, some fault)
  | .render _ | .validate => False

theorem code_outcomeOfVerdict_ne_one (v : Verdict) : (outcomeOfVerdict v).status.code ≠ 1 := by
  unfold outcomeOfVerdict
  cases v.valid <;> nofun

theorem code_outcomeOfDocuments_ne_one (joining : Bool) (compiled : Except Conflict Compiled) :
    (outcomeOfDocuments joining compiled).status.code ≠ 1 := by
  cases compiled <;> nofun

theorem Command.code_eq_one_iff (s : Settings) (command : Command) (at' : Disk × Calendar.Instant) :
    (command.onFiles s at').1.status.code = 1 ↔
      ¬ command.PluginThere at'.1 ∨ command.WriteFails s at'.1 := by
  cases command with
  | validate =>
      exact iff_of_false (code_outcomeOfVerdict_ne_one s.check)
        (not_or_intro (not_not_intro trivial) id)
  | render joining =>
      exact iff_of_false (code_outcomeOfDocuments_ne_one joining s.compile)
        (not_or_intro (not_not_intro trivial) id)
  | generate targets =>
      obtain ⟨run, after, hfiles, hcourse⟩ := exists_course s targets at'
      rw [hfiles]
      cases hcourse with
      | pluginMissing hplugin hopens =>
          have hmissing : ¬ (generate targets).PluginThere at'.1 := fun hopen =>
            nomatch hopens.symm.trans (hopen _ hplugin)
          exact iff_of_true rfl (Or.inl hmissing)
      | conflict hplugin hcompile =>
          refine iff_of_false nofun ?_
          rintro (hmissing | ⟨_, c, _, _, hc, _⟩)
          · exact hmissing hplugin
          · exact nomatch hcompile.symm.trans hc
      | notWritten hplugin hcompile hwrites =>
          exact iff_of_true rfl (Or.inr ⟨hplugin, _, _, _, hcompile, hwrites⟩)
      | done hplugin hcompile hwrites =>
          refine iff_of_false nofun ?_
          rintro (hmissing | ⟨_, c, after, fault, hc, hfail⟩)
          · exact hmissing hplugin
          · obtain rfl := Except.ok.inj (hcompile.symm.trans hc)
            exact nomatch hwrites.symm.trans hfail

/-- Only a command that succeeds, or fails to write, changes files. -/
theorem Command.disk_eq_of_code_ne_zero {s : Settings} {command : Command}
    {at' : Disk × Calendar.Instant} (hcode : (command.onFiles s at').1.status.code ≠ 0)
    (hwrites : ¬ command.WriteFails s at'.1) : (command.onFiles s at').2.1 = at'.1 := by
  cases command with
  | validate => rfl
  | render joining => rfl
  | generate targets =>
      obtain ⟨run, after, hfiles, hcourse⟩ := exists_course s targets at'
      rw [hfiles] at hcode ⊢
      cases hcourse with
      | pluginMissing => rfl
      | conflict => rfl
      | notWritten hplugin hcompile hfail =>
          exact absurd ⟨hplugin, _, _, _, hcompile, hfail⟩ hwrites
      | done => exact absurd rfl hcode

/-! ## Runs of the program -/

/-- Arguments ask for a command, and the settings for it are loaded. -/
def Loads (machine : Machine) (environment : Source) (args : List String) (command : Command)
    (s : Settings) : Prop :=
  ∃ i, read args = .invocation i ∧ i.command = command ∧
    Settings.loadFrom machine.disk i.settingsFile? environment = .ok s

/-- What the status of the program tells. -/
structure StatusTells (machine : Machine) (environment : Source) (args : List String) : Prop where
  /-- Either the arguments ask for nothing, or settings that were loaded clash. -/
  two_iff : (machine.run environment args).1.status.code = 2 ↔
    read args = .misuse ∨ ∃ command s, Loads machine environment args command s ∧
      (∃ subject, s.Clashes subject) ∧ command.PluginThere machine.disk
  /-- Settings cannot be loaded, or a plugin is missing, or a document cannot be written. -/
  one_iff : (machine.run environment args).1.status.code = 1 ↔
    (∃ i fault, read args = .invocation i ∧
      Settings.loadFrom machine.disk i.settingsFile? environment = .error fault) ∨
    ∃ command s, Loads machine environment args command s ∧
      (¬ command.PluginThere machine.disk ∨ command.WriteFails s machine.disk)
  /-- There is no other status of a failure. -/
  failing : (machine.run environment args).1.status.code ≠ 0 →
    (machine.run environment args).1.status.code = 1 ∨
      (machine.run environment args).1.status.code = 2
  /-- A run that fails leaves all files as they are, unless it fails to write. -/
  unchanged : (machine.run environment args).1.status.code ≠ 0 →
    (∀ command s, Loads machine environment args command s → ¬ command.WriteFails s machine.disk) →
      (machine.run environment args).2.disk = machine.disk

section

variable {machine : Machine} {environment : Source} {args : List String} {i : Invocation}

theorem loads_iff {s : Settings} (hread : read args = .invocation i)
    (hload : Settings.loadFrom machine.disk i.settingsFile? environment = .ok s) {command : Command}
    {s' : Settings} : Loads machine environment args command s' ↔ command = i.command ∧ s' = s := by
  constructor
  · rintro ⟨i', hi', rfl, hs'⟩
    obtain rfl := Reading.invocation.inj (hread.symm.trans hi')
    exact ⟨rfl, Except.ok.inj (hs'.symm.trans hload)⟩
  · rintro ⟨rfl, rfl⟩
    exact ⟨i, hread, rfl, hload⟩

theorem not_loads_of_error {fault : SettingsFault} (hread : read args = .invocation i)
    (hload : Settings.loadFrom machine.disk i.settingsFile? environment = .error fault)
    (command : Command) (s : Settings) : ¬ Loads machine environment args command s := by
  rintro ⟨i', hi', -, hs⟩
  obtain rfl := Reading.invocation.inj (hread.symm.trans hi')
  exact nomatch hload.symm.trans hs

theorem code_eq_one_or_two {status : ExitStatus} (h : status.code ≠ 0) :
    status.code = 1 ∨ status.code = 2 := by
  cases status with
  | success => exact absurd rfl h
  | failure => exact Or.inl rfl
  | conflict => exact Or.inr rfl
  | misuse => exact Or.inr rfl

/-- What becomes of settings that are loaded is up to the command. -/
theorem statusTells_of_loaded {s : Settings} (hread : read args = .invocation i)
    (hload : Settings.loadFrom machine.disk i.settingsFile? environment = .ok s) :
    StatusTells machine environment args := by
  obtain ⟨houtcome, hdisk⟩ := run_of_loaded hread hload
  have hloads : Loads machine environment args i.command s :=
    (loads_iff hread hload).mpr ⟨rfl, rfl⟩
  refine ⟨?_, ?_, code_eq_one_or_two, ?_⟩
  · rw [houtcome, Command.code_eq_two_iff, s.violations_ne_nil_iff]
    constructor
    · exact fun h => Or.inr ⟨_, _, hloads, h⟩
    · rintro (hmisuse | ⟨command, s', hloads', h⟩)
      · exact nomatch hread.symm.trans hmisuse
      · obtain ⟨rfl, rfl⟩ := (loads_iff hread hload).mp hloads'
        exact h
  · rw [houtcome, Command.code_eq_one_iff]
    constructor
    · exact fun h => Or.inr ⟨_, _, hloads, h⟩
    · rintro (⟨i', fault, hread', hfault⟩ | ⟨command, s', hloads', h⟩)
      · obtain rfl := Reading.invocation.inj (hread.symm.trans hread')
        exact nomatch hload.symm.trans hfault
      · obtain ⟨rfl, rfl⟩ := (loads_iff hread hload).mp hloads'
        exact h
  · intro hcode hwrites
    rw [houtcome] at hcode
    rw [hdisk]
    exact Command.disk_eq_of_code_ne_zero hcode (hwrites _ _ hloads)

/-- Without settings that are loaded, no files are changed. -/
theorem statusTells_of_not_loads
    (hnone : ∀ command s, ¬ Loads machine environment args command s)
    (htwo : (machine.run environment args).1.status.code = 2 ↔ read args = .misuse)
    (hone : (machine.run environment args).1.status.code = 1 ↔ ∃ i fault,
      read args = .invocation i ∧
        Settings.loadFrom machine.disk i.settingsFile? environment = .error fault)
    (hdisk : (machine.run environment args).2.disk = machine.disk) :
    StatusTells machine environment args where
  two_iff := htwo.trans (or_iff_left fun ⟨_, _, h, _⟩ => hnone _ _ h).symm
  one_iff := hone.trans (or_iff_left fun ⟨_, _, h, _⟩ => hnone _ _ h).symm
  failing := code_eq_one_or_two
  unchanged _ _ := hdisk

end

/-- **The status tells what a failure was about, but not conflicts from misuse.** -/
theorem statusTells (machine : Machine) (environment : Source) (args : List String) :
    StatusTells machine environment args := by
  have hrun := run_onFiles machine environment args
  unfold onFiles at hrun
  cases hread : read args with
  | help =>
      rw [hread] at hrun
      obtain ⟨houtcome, hfiles⟩ := Prod.mk.inj hrun
      have hnone : ∀ i, read args ≠ .invocation i := fun i hi => nomatch hread.symm.trans hi
      refine statusTells_of_not_loads (fun _ _ ⟨i, hi, _⟩ => hnone i hi) ?_ ?_
        (congrArg Prod.fst hfiles)
      · rw [houtcome, hread]
        exact iff_of_false nofun nofun
      · rw [houtcome]
        exact iff_of_false nofun fun ⟨i, _, hi, _⟩ => hnone i hi
  | misuse =>
      rw [hread] at hrun
      obtain ⟨houtcome, hfiles⟩ := Prod.mk.inj hrun
      have hnone : ∀ i, read args ≠ .invocation i := fun i hi => nomatch hread.symm.trans hi
      refine statusTells_of_not_loads (fun _ _ ⟨i, hi, _⟩ => hnone i hi) ?_ ?_
        (congrArg Prod.fst hfiles)
      · rw [houtcome]
        exact iff_of_true rfl hread
      · rw [houtcome]
        exact iff_of_false nofun fun ⟨i, _, hi, _⟩ => hnone i hi
  | invocation i =>
      cases hload : Settings.loadFrom machine.disk i.settingsFile? environment with
      | ok s => exact statusTells_of_loaded hread hload
      | error fault =>
          rw [hread] at hrun
          dsimp only at hrun
          rw [show machine.files.1 = machine.disk from rfl, hload] at hrun
          obtain ⟨houtcome, hfiles⟩ := Prod.mk.inj hrun
          refine statusTells_of_not_loads (not_loads_of_error hread hload) ?_ ?_
            (congrArg Prod.fst hfiles)
          · rw [houtcome, hread]
            exact iff_of_false nofun nofun
          · rw [houtcome]
            exact iff_of_true rfl ⟨i, fault, hread, hload⟩

/-- Arguments that ask for nothing end like a conflict, although no settings are loaded then, and
those that would be do not clash. -/
theorem code_misuse_eq_two :
    (Machine.fresh.run (.ofList []) ["start"]).1.status.code = 2 ∧
      (¬ ∃ command s, Loads Machine.fresh (.ofList []) ["start"] command s) ∧
      ¬ ∃ subject, (Settings.ofSource (.ofList [])).Clashes subject := by
  have hread : read ["start"] = .misuse := rfl
  refine ⟨rfl, ?_, ?_⟩
  · rintro ⟨_, _, i, hi, -⟩
    exact nomatch hread.symm.trans hi
  · exact not_exists.mpr ((Settings.violations_eq_nil_iff _).mp (by decide))

end LogShipper.CommandLine
